import Mathlib.Order.Interval.Finset.Nat
import NgxNdg.Each.Model

/-!
# Arrays and lists in a pool

`ngx_array_t` and `ngx_list_t` with the macros around them, any number of them in one pool.

## Design notes

As in the iteration macros an address counts elements. A pool is its cells and which of them it
has handed out; it hands out cells that are not in use, at any address. That it has no memory left
is an outcome. The `last` pointer of a list points to its last part.
-/

namespace NgxNdg

open Memory

variable {ι κ α : Type*}

/-- `ngx_array_t`. -/
structure NgxArrayT extends NgxArray where
  nalloc : ℕ

/-- `ngx_list_t`. -/
structure NgxListT extends NgxList where
  nalloc : ℕ

-- ════════════════════════════════════════════════════════════════════════
-- The macros
-- ════════════════════════════════════════════════════════════════════════

def ngxArrayNelts (array : NgxArrayT) : ℕ := array.nelts

def ngxArrayReset (array : NgxArrayT) : NgxArrayT := { array with nelts := 0 }

def ngxArrayEmpty (array : NgxArrayT) : Bool := array.nelts == 0

def ngxArrayCapacity (array : NgxArrayT) : ℕ := array.nalloc

def ngxListEmpty (list : NgxListT) : Bool := list.part.nelts == 0

-- ════════════════════════════════════════════════════════════════════════
-- The library
-- ════════════════════════════════════════════════════════════════════════

/-- A pool of elements: its cells, and those that are in use. -/
structure ElementPool (α : Type*) where
  mem : ℕ → α
  used : Finset ℕ

/-- `ngx_palloc` of `n` elements at the address `a`; `none` when some of them are in use. -/
def ElementPool.palloc (pool : ElementPool α) (a n : ℕ) : Option (ElementPool α) :=
  if Disjoint pool.used (Finset.Ico a (a + n)) then
    some { pool with used := pool.used ∪ Finset.Ico a (a + n) }
  else none

/-- `p = push(..); if (p == NULL) return; *p = x;` -/
def ElementPool.store (pool : ElementPool α) (p : Option ℕ) (x : α) : ElementPool α :=
  match p with
  | none => pool
  | some a => { pool with mem := Function.update pool.mem a x }

/-- How a full array grows: into the cell behind it, or by a move to the address `elts`. -/
inductive Growth where
  | inPlace
  | moved (elts : ℕ)

/-- The growth of a full array; `none` in the second component when there is no memory. -/
def ngxArrayGrow (grow : Option Growth) (pool : ElementPool α) (array : NgxArrayT) :
    Option (ElementPool α × Option NgxArrayT) :=
  match grow with
  | none => some (pool, none)
  | some .inPlace =>
    (pool.palloc (array.elts + array.nalloc) 1).map fun pool =>
      (pool, some { array with nalloc := array.nalloc + 1 })
  | some (.moved elts) =>
    (pool.palloc elts (2 * array.nalloc)).map fun pool =>
      ({ pool with
          mem := fill pool.mem elts (cells pool.mem array.elts (array.elts + array.nalloc)) },
        some { array with elts := elts, nalloc := 2 * array.nalloc })

/-- `ngx_array_push`, with the pointer that it returns. -/
def ngxArrayPush (grow : Option Growth) (pool : ElementPool α) (array : NgxArrayT) :
    Option (ElementPool α × NgxArrayT × Option ℕ) :=
  (if array.nelts = array.nalloc then ngxArrayGrow grow pool array
    else some (pool, some array)).map fun (pool, grown) =>
      match grown with
      | none => (pool, array, none)
      | some array =>
        (pool, { array with nelts := array.nelts + 1 }, some (array.elts + array.nelts))

/-- The part that `last` points to. -/
def NgxList.last (list : NgxList) : NgxListPart :=
  list.parts.getLast (List.cons_ne_nil list.part list.next)

/-- `*list->last = part` -/
def NgxListT.setLast (list : NgxListT) (part : NgxListPart) : NgxListT :=
  if list.next = [] then { list with part := part }
  else { list with next := list.next.dropLast ++ [part] }

/-- `ngx_list_push`, with the pointer that it returns; `elts` is the address of the elements of a
new part, `none` when there is no memory for that. -/
def ngxListPush (elts : Option ℕ) (pool : ElementPool α) (list : NgxListT) :
    Option (ElementPool α × NgxListT × Option ℕ) :=
  if list.last.nelts = list.nalloc then
    match elts with
    | none => some (pool, list, none)
    | some elts =>
      (pool.palloc elts list.nalloc).map fun pool =>
        (pool, { list with next := list.next ++ [⟨elts, 1⟩] }, some elts)
  else
    some (pool, list.setLast { list.last with nelts := list.last.nelts + 1 },
      some (list.last.elts + list.last.nelts))

-- ════════════════════════════════════════════════════════════════════════
-- Runs
-- ════════════════════════════════════════════════════════════════════════

/-- A use of an array or a list. A creation gets the address of the elements, `none` when there is
no memory. -/
inductive ContainerOp (ι κ α : Type*) where
  | arrayCreate (i : ι) (n : ℕ) (elts : Option ℕ)
  | arrayPush (i : ι) (x : α) (grow : Option Growth)
  | arrayReset (i : ι)
  | listCreate (k : κ) (n : ℕ) (elts : Option ℕ)
  | listPush (k : κ) (x : α) (elts : Option ℕ)

/-- The arrays and the lists of a pool. -/
structure ContainerHeap (ι κ α : Type*) where
  pool : ElementPool α
  arrays : ι → Option NgxArrayT
  lists : κ → Option NgxListT

/-- One use; `none` where a variable is `NULL`, and where the pool would hand out cells that are
in use. -/
def containerStep [DecidableEq ι] [DecidableEq κ] (h : ContainerHeap ι κ α) :
    ContainerOp ι κ α → Option (ContainerHeap ι κ α)
  | .arrayCreate i _ none => some { h with arrays := Function.update h.arrays i none }
  | .arrayCreate i n (some elts) =>
    (h.pool.palloc elts n).map fun pool =>
      { h with pool := pool, arrays := Function.update h.arrays i (some ⟨⟨elts, 0⟩, n⟩) }
  | .arrayPush i x grow =>
    (h.arrays i).bind fun array =>
      (ngxArrayPush grow h.pool array).map fun (pool, array, p) =>
        { h with pool := pool.store p x, arrays := Function.update h.arrays i (some array) }
  | .arrayReset i =>
    (h.arrays i).map fun array =>
      { h with arrays := Function.update h.arrays i (some (ngxArrayReset array)) }
  | .listCreate k _ none => some { h with lists := Function.update h.lists k none }
  | .listCreate k n (some elts) =>
    (h.pool.palloc elts n).map fun pool =>
      { h with
        pool := pool
        lists := Function.update h.lists k (some ⟨⟨⟨elts, 0⟩, []⟩, n⟩) }
  | .listPush k x elts =>
    (h.lists k).bind fun list =>
      (ngxListPush elts h.pool list).map fun (pool, list, p) =>
        { h with pool := pool.store p x, lists := Function.update h.lists k (some list) }

/-- A pool without arrays and lists. -/
def ContainerHeap.init (mem : ℕ → α) : ContainerHeap ι κ α :=
  ⟨⟨mem, ∅⟩, fun _ => none, fun _ => none⟩

end NgxNdg
