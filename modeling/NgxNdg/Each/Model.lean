import NgxNdg.Lib.Loop
import NgxNdg.Lib.Memory
import NgxNdg.Queue.Model

/-!
# The iteration macros

`ngx_array_each`, `ngx_list_each` and `ngx_queue_each` with a body between the macro and its
`ngx_*_loop`.

## Design notes

An address counts elements, and a pointer to a part of a list is the list of the parts from that
one on, with `[]` for `NULL`. The body is given the element its variable points to and leaves the
container alone; for a body that writes to the elements, the element is its address.
-/

namespace NgxNdg

open CLoop LinkRing Memory

variable {σ α β : Type*}

/-- `ngx_array_t`, without its capacity. -/
structure NgxArray where
  elts : ℕ
  nelts : ℕ

/-- `ngx_list_part_t`, without its next part. -/
structure NgxListPart where
  elts : ℕ
  nelts : ℕ

/-- `ngx_list_t`: the part it holds, and the parts behind that one. -/
structure NgxList where
  part : NgxListPart
  next : List NgxListPart

/-- The elements of an array. -/
def NgxArray.elements (mem : ℕ → α) (array : NgxArray) : List α :=
  cells mem array.elts (array.elts + array.nelts)

/-- The elements of a part. -/
def NgxListPart.elements (mem : ℕ → α) (part : NgxListPart) : List α :=
  cells mem part.elts (part.elts + part.nelts)

/-- The parts of a list. -/
def NgxList.parts (list : NgxList) : List NgxListPart := list.part :: list.next

/-- The elements of the parts, in order. -/
def partsElements (mem : ℕ → α) (parts : List NgxListPart) : List α :=
  (parts.map (NgxListPart.elements mem)).flatten

/-- The loop over the elements from `elt` to `bufEnd` that two of the macros share. -/
def eltLoop (mem : ℕ → α) (body : σ → α → σ × Exit) (fuel : ℕ) (s : σ) (elt bufEnd : ℕ) :
    Option σ :=
  forLoop (fun elt => elt != bufEnd) (fun elt => elt + 1) (fun s elt => some (body s (mem elt)))
    fuel s elt

/-- `ngx_array_each(elt, array) { body } ngx_array_loop;` -/
def ngxArrayEach (mem : ℕ → α) (array : NgxArray) (body : σ → α → σ × Exit) (fuel : ℕ) (s : σ) :
    Option σ :=
  eltLoop mem body fuel s array.elts (array.elts + array.nelts)

/-- `ngx_list_each(elt, list) { body } ngx_list_loop;` -/
def ngxListEach (mem : ℕ → α) (list : NgxList) (body : σ → α → σ × Exit) (fuel : ℕ) (s : σ) :
    Option σ :=
  forLoop (fun part => !part.isEmpty) List.tail
    (fun s part =>
      match part with
      | [] => none
      | p :: _ =>
        -- a `break` of the body ends the loop over the elements of `p` and nothing else
        (eltLoop mem body fuel s p.elts (p.elts + p.nelts)).map fun t => (t, .fallThrough))
    fuel s list.parts

/-- `ngx_queue_each(elt, queue, type, link) { body } ngx_queue_loop;`, where `data` is
`ngx_queue_data` of a link. -/
def ngxQueueEach [DecidableEq β] (m : Links β) (queue : β) (data : β → α)
    (body : σ → α → σ × Exit) (fuel : ℕ) (s : σ) : Option σ :=
  forLoop (fun lnk => lnk != queue) m.next (fun s lnk => some (body s (data lnk))) fuel s
    (ngxQueueHead queue m)

end NgxNdg
