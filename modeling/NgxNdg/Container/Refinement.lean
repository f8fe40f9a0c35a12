import NgxNdg.Container.Model
import NgxNdg.Each.Break
import NgxNdg.Lib.Ownership
import NgxNdg.Lib.Run

/-!
# Arrays and lists as sequences

The uses of any number of arrays and lists in one pool are operations on sequences. A push appends
one element to one of them, also when the array moves or the list gets a new part, and the others
keep theirs.

## Main definitions

- `Contents`, `ContentsStep`: the sequences, and what a use does to them
- `ContainerHeap.contents`: the sequences of a pool
- `ListLayout`: all parts of a list but the last are full
-/

namespace NgxNdg

open CLoop Memory Transition

variable {ι κ α : Type*}

-- ════════════════════════════════════════════════════════════════════════
-- The sequences
-- ════════════════════════════════════════════════════════════════════════

/-- The sequences in the arrays and the lists. -/
@[ext]
structure Contents (ι κ α : Type*) where
  arrays : ι → Option (List α)
  lists : κ → Option (List α)

/-- What a use does to the sequences. A push is refused only without memory. -/
inductive ContentsStep [DecidableEq ι] [DecidableEq κ] (c : Contents ι κ α) :
    ContainerOp ι κ α → Contents ι κ α → Prop where
  | arrayCreate (i : ι) (n : ℕ) (elts : Option ℕ) :
      ContentsStep c (.arrayCreate i n elts)
        { c with arrays := Function.update c.arrays i (elts.map fun _ => []) }
  | arrayPush {i : ι} {x : α} {grow : Option Growth} {l : List α} : c.arrays i = some l →
      ContentsStep c (.arrayPush i x grow)
        { c with arrays := Function.update c.arrays i (some (l ++ [x])) }
  | arrayFull {i : ι} {x : α} {l : List α} : c.arrays i = some l →
      ContentsStep c (.arrayPush i x none) c
  | arrayReset {i : ι} {l : List α} : c.arrays i = some l →
      ContentsStep c (.arrayReset i)
        { c with arrays := Function.update c.arrays i (some []) }
  | listCreate (k : κ) (n : ℕ) (elts : Option ℕ) :
      ContentsStep c (.listCreate k n elts)
        { c with lists := Function.update c.lists k (elts.map fun _ => []) }
  | listPush {k : κ} {x : α} {elts : Option ℕ} {l : List α} : c.lists k = some l →
      ContentsStep c (.listPush k x elts)
        { c with lists := Function.update c.lists k (some (l ++ [x])) }
  | listFull {k : κ} {x : α} {l : List α} : c.lists k = some l →
      ContentsStep c (.listPush k x none) c

/-- The elements of a list. -/
def NgxListT.elements (mem : ℕ → α) (list : NgxListT) : List α := partsElements mem list.parts

def ContainerHeap.contents (h : ContainerHeap ι κ α) : Contents ι κ α where
  arrays := fun i => (h.arrays i).map fun array => array.elements h.pool.mem
  lists := fun k => (h.lists k).map (NgxListT.elements h.pool.mem)

/-- An array or a list is made with room for an element. -/
def ContainerOp.HasRoom : ContainerOp ι κ α → Prop
  | .arrayCreate _ n _ => 0 < n
  | .listCreate _ n _ => 0 < n
  | _ => True

-- ════════════════════════════════════════════════════════════════════════
-- The layout of the pool
-- ════════════════════════════════════════════════════════════════════════

/-- What owns cells of the pool: an array, or a part of a list. -/
inductive Block (ι κ : Type*) where
  | array (i : ι)
  | part (k : κ) (j : ℕ)

variable {γ : Type*} {owner owner' : ℕ → Option γ} {b : γ} {block : ℕ → γ} {mem mem' : ℕ → α}
  {pool pool' : ElementPool α} {array array' : NgxArrayT} {list list' : NgxListT} {p : Option ℕ}

/-- Cells with an owner are in use. -/
def OwnedUsed (owner : ℕ → Option γ) (pool : ElementPool α) : Prop :=
  ∀ x, owner x ≠ none → x ∈ pool.used

/-- An array owns the cells that it has room in. -/
structure ArrayLayout (owner : ℕ → Option γ) (b : γ) (array : NgxArrayT) : Prop where
  owns : Owns owner b array.elts (array.elts + array.nalloc)
  nelts : array.nelts ≤ array.nalloc
  nalloc : 0 < array.nalloc

/-- Each part of a list owns the cells that it has room in, all parts but the last are full, and
only a first part may be empty. -/
structure ListLayout (owner : ℕ → Option γ) (block : ℕ → γ) (list : NgxListT) : Prop where
  owns : ∀ j part, list.parts[j]? = some part →
    Owns owner (block j) part.elts (part.elts + list.nalloc)
  full : ∀ part ∈ list.parts.dropLast, part.nelts = list.nalloc
  last : list.last.nelts ≤ list.nalloc
  nonempty : list.next ≠ [] → 0 < list.last.nelts
  nalloc : 0 < list.nalloc

theorem parts_eq (list : NgxListT) : list.parts = list.parts.dropLast ++ [list.last] :=
  (List.dropLast_append_getLast _).symm

theorem parts_setLast (list : NgxListT) (part : NgxListPart) :
    (list.setLast part).parts = list.parts.dropLast ++ [part] := by
  unfold NgxListT.setLast
  split
  next hnext =>
    show part :: list.next = (list.part :: list.next).dropLast ++ [part]
    rw [hnext]
    rfl
  next hnext =>
    show list.part :: (list.next.dropLast ++ [part]) = (list.part :: list.next).dropLast ++ [part]
    rw [List.dropLast_cons_of_ne_nil hnext]
    rfl

theorem palloc_eq_some {elts n : ℕ} (h : pool.palloc elts n = some pool') :
    Disjoint pool.used (Finset.Ico elts (elts + n)) ∧
      pool' = { pool with used := pool.used ∪ Finset.Ico elts (elts + n) } := by
  unfold ElementPool.palloc at h
  split at h
  case isTrue hdisjoint => exact ⟨hdisjoint, (Option.some.inj h).symm⟩
  case isFalse => cases h

/-- What the pool hands out had no owner, and has one then. -/
theorem palloc_writes {elts n : ℕ} (hused : OwnedUsed owner pool)
    (h : pool.palloc elts n = some pool') (b : γ) :
    Writes owner (claim owner b elts (elts + n)) b pool.mem pool'.mem ∧
      OwnedUsed (claim owner b elts (elts + n)) pool' ∧ pool'.mem = pool.mem := by
  obtain ⟨hdisjoint, rfl⟩ := palloc_eq_some h
  refine ⟨.claim (fun x hs ht => ?_) pool.mem, fun x hx => ?_, rfl⟩
  · by_contra hne
    exact Finset.disjoint_left.mp hdisjoint (hused x hne) (Finset.mem_Ico.mpr ⟨hs, ht⟩)
  · obtain hold | hnew := claim_ne_none hx
    · exact Finset.mem_union_left _ (hused x hold)
    · exact Finset.mem_union_right _ (Finset.mem_Ico.mpr hnew)

-- ════════════════════════════════════════════════════════════════════════
-- Pushes
-- ════════════════════════════════════════════════════════════════════════

/-- A full array that has grown holds its elements, with room for one more. -/
theorem ngxArrayGrow_writes {grow : Option Growth} {grown : Option NgxArrayT}
    (hlayout : ArrayLayout owner b array) (hused : OwnedUsed owner pool)
    (hfull : array.nelts = array.nalloc)
    (h : ngxArrayGrow grow pool array = some (pool', grown)) :
    (grow = none ∧ pool' = pool ∧ grown = none) ∨
      ∃ array' owner', grown = some array' ∧ Writes owner owner' b pool.mem pool'.mem ∧
        OwnedUsed owner' pool' ∧ ArrayLayout owner' b array' ∧ array'.nelts < array'.nalloc ∧
        array'.elements pool'.mem = array.elements pool.mem := by
  have hpos := hlayout.nalloc
  cases grow with
  | none =>
    obtain ⟨rfl, rfl⟩ := Prod.mk.inj (Option.some.inj h)
    exact .inl ⟨rfl, rfl, rfl⟩
  | some growth =>
    right
    cases growth with
    | inPlace =>
      obtain ⟨pool₁, hpalloc, heq⟩ := Option.map_eq_some_iff.mp h
      obtain ⟨rfl, rfl⟩ := Prod.mk.inj heq
      obtain ⟨hwrites, hused', hmem⟩ := palloc_writes hused hpalloc b
      refine ⟨_, _, rfl, hwrites, hused', ⟨?_, ?_, ?_⟩, ?_, ?_⟩
      · exact (hwrites.owns hlayout.owns).append (owns_claim _ _ _ _)
      · exact hlayout.nelts.trans (Nat.le_succ _)
      · exact Nat.succ_pos _
      · exact hfull.trans_lt (Nat.lt_succ_self _)
      · exact congrArg (NgxArray.elements · array.toNgxArray) hmem
    | moved elts =>
      obtain ⟨pool₁, hpalloc, heq⟩ := Option.map_eq_some_iff.mp h
      obtain ⟨rfl, rfl⟩ := Prod.mk.inj heq
      obtain ⟨hwrites, hused', hmem⟩ := palloc_writes hused hpalloc b
      have howns := owns_claim owner b elts (elts + 2 * array.nalloc)
      have hlength : (cells pool₁.mem array.elts (array.elts + array.nalloc)).length =
          array.nalloc := by
        rw [length_cells, Nat.add_sub_cancel_left]
      refine ⟨_, _, rfl, hwrites.trans (.fill ?_ pool₁.mem), hused', ⟨howns, ?_, ?_⟩, ?_, ?_⟩
      · rw [hlength]
        exact fun x hs ht => howns x hs (by omega)
      · show array.nelts ≤ 2 * array.nalloc
        omega
      · show 0 < 2 * array.nalloc
        omega
      · show array.nelts < 2 * array.nalloc
        omega
      · show cells (fill pool₁.mem elts _) elts (elts + array.nelts) =
          cells pool.mem array.elts (array.elts + array.nelts)
        have hself := cells_fill_self pool₁.mem elts
          (cells pool₁.mem array.elts (array.elts + array.nalloc))
        rw [hlength] at hself
        rw [hfull, hself, hmem]

/-- The caller stores the element behind those of the array. -/
theorem ArrayLayout.store (h : ArrayLayout owner b array) (hroom : array.nelts < array.nalloc)
    (pool : ElementPool α) (x : α) :
    Writes owner owner b pool.mem (pool.store (some (array.elts + array.nelts)) x).mem ∧
      ArrayLayout owner b { array with nelts := array.nelts + 1 } ∧
      NgxArray.elements (pool.store (some (array.elts + array.nelts)) x).mem
        ⟨array.elts, array.nelts + 1⟩ = array.elements pool.mem ++ [x] := by
  refine ⟨.update ?_ x pool.mem, ⟨h.owns, hroom, h.nalloc⟩, ?_⟩
  · exact h.owns _ (Nat.le_add_right _ _) (by omega)
  · exact cells_update_append x (Nat.le_add_right _ _)

/-- A push appends its element to the array, unless there is no memory for it. -/
theorem ngxArrayPush_store {grow : Option Growth} (hlayout : ArrayLayout owner b array)
    (hused : OwnedUsed owner pool)
    (h : ngxArrayPush grow pool array = some (pool', array', p)) (x : α) :
    (grow = none ∧ pool'.store p x = pool ∧ array' = array) ∨
      ∃ owner', Writes owner owner' b pool.mem (pool'.store p x).mem ∧
        OwnedUsed owner' (pool'.store p x) ∧ ArrayLayout owner' b array' ∧
        array'.elements (pool'.store p x).mem = array.elements pool.mem ++ [x] := by
  obtain ⟨⟨pool₁, grown⟩, hgrow, heq⟩ := Option.map_eq_some_iff.mp h
  have hgrown : (grow = none ∧ pool₁ = pool ∧ grown = none) ∨
      ∃ array₁ owner', grown = some array₁ ∧ Writes owner owner' b pool.mem pool₁.mem ∧
        OwnedUsed owner' pool₁ ∧ ArrayLayout owner' b array₁ ∧ array₁.nelts < array₁.nalloc ∧
        array₁.elements pool₁.mem = array.elements pool.mem := by
    split at hgrow
    case isTrue hfull => exact ngxArrayGrow_writes hlayout hused hfull hgrow
    case isFalse hroom =>
      obtain ⟨rfl, rfl⟩ := Prod.mk.inj (Option.some.inj hgrow)
      exact .inr ⟨array, owner, rfl, .refl owner b pool.mem, hused, hlayout,
        lt_of_le_of_ne hlayout.nelts hroom, rfl⟩
  obtain ⟨rfl, rfl, rfl⟩ | ⟨array₁, owner', rfl, hwrites, hused', hlayout', hroom, helements⟩ :=
    hgrown
  · obtain ⟨rfl, hrest⟩ := Prod.mk.inj heq
    obtain ⟨rfl, rfl⟩ := Prod.mk.inj hrest
    exact .inl ⟨rfl, rfl, rfl⟩
  · obtain ⟨rfl, hrest⟩ := Prod.mk.inj heq
    obtain ⟨rfl, rfl⟩ := Prod.mk.inj hrest
    obtain ⟨hstore, hlayout'', helements'⟩ := hlayout'.store hroom pool₁ x
    exact .inr ⟨owner', hwrites.trans hstore, hused', hlayout'',
      helements'.trans (by rw [helements])⟩

-- ════════════════════════════════════════════════════════════════════════
-- Pushes to lists
-- ════════════════════════════════════════════════════════════════════════

theorem partsElements_append (mem : ℕ → α) (front back : List NgxListPart) :
    partsElements mem (front ++ back) = partsElements mem front ++ partsElements mem back := by
  simp [partsElements]

/-- A write in another block leaves the elements of parts alone. -/
theorem partsElements_of_writes {parts : List NgxListPart} {n : ℕ}
    (hw : Writes owner owner' b mem mem')
    (howns : ∀ j part, parts[j]? = some part →
      Owns owner (block j) part.elts (part.elts + n))
    (hfit : ∀ part ∈ parts, part.nelts ≤ n) (hne : ∀ j < parts.length, block j ≠ b) :
    partsElements mem' parts = partsElements mem parts := by
  show (parts.map _).flatten = (parts.map _).flatten
  congr 1
  apply List.map_congr_left
  intro part hpart
  obtain ⟨j, hj⟩ := List.mem_iff_getElem?.mp hpart
  have hfits := hfit part hpart
  have hpart' : Owns owner (block j) part.elts (part.elts + part.nelts) :=
    fun x hs ht => howns j part hj x hs (by omega)
  exact hw.cells hpart' (hne j (List.getElem?_eq_some_iff.mp hj).1)

theorem last_eq {front : List NgxListPart} {q : NgxListPart} (h : list.parts = front ++ [q]) :
    list.last = q := by
  have hlast := parts_eq list
  rw [h] at hlast
  exact (List.append_inj_right' hlast rfl |> List.cons.inj).1.symm

/-- The layout of a list, part by part. -/
theorem listLayout_of_parts {front : List NgxListPart} {q : NgxListPart}
    (hparts : list.parts = front ++ [q])
    (howns : ∀ j part, front[j]? = some part →
      Owns owner (block j) part.elts (part.elts + list.nalloc))
    (hq : Owns owner (block front.length) q.elts (q.elts + list.nalloc))
    (hfull : ∀ part ∈ front, part.nelts = list.nalloc) (hpos : 0 < q.nelts)
    (hle : q.nelts ≤ list.nalloc) : ListLayout owner block list where
  owns := by
    intro j part hj
    rw [hparts, List.getElem?_append] at hj
    split at hj
    case isTrue => exact howns j part hj
    case isFalse hge =>
      obtain ⟨hlt, hpart⟩ := List.getElem?_eq_some_iff.mp hj
      have hlast : j = front.length := by
        rw [List.length_singleton] at hlt
        omega
      subst hlast
      obtain rfl : q = part := by simpa using hpart
      exact hq
  full := by
    rw [hparts, List.dropLast_concat]
    exact hfull
  last := (last_eq hparts).symm ▸ hle
  nonempty := fun _ => (last_eq hparts).symm ▸ hpos
  nalloc := hpos.trans_le hle

/-- All the parts of a list hold as many elements as they have room for at most. -/
theorem ListLayout.fits (h : ListLayout owner block list) :
    ∀ part ∈ list.parts, part.nelts ≤ list.nalloc := by
  intro part hpart
  rw [parts_eq] at hpart
  obtain hfront | hlast := List.mem_append.mp hpart
  · exact (h.full part hfront).le
  · rw [List.mem_singleton.mp hlast]
    exact h.last

/-- Behind full parts a new one gets the element. -/
theorem ListLayout.newPart {elts : ℕ} (hlayout : ListLayout owner block list)
    (hinj : Function.Injective block) (hused : OwnedUsed owner pool)
    (hfull : list.last.nelts = list.nalloc) (hpalloc : pool.palloc elts list.nalloc = some pool')
    (x : α) :
    ∃ owner', Writes owner owner' (block list.parts.length) pool.mem
        (Function.update pool'.mem elts x) ∧
      OwnedUsed owner' pool' ∧
      ListLayout owner' block { list with next := list.next ++ [⟨elts, 1⟩] } ∧
      partsElements (Function.update pool'.mem elts x) (list.parts ++ [⟨elts, 1⟩]) =
        list.elements pool.mem ++ [x] := by
  obtain ⟨hclaim, hused', -⟩ := palloc_writes hused hpalloc (block list.parts.length)
  have hnew := owns_claim owner (block list.parts.length) elts (elts + list.nalloc)
  have hfirst := hnew elts le_rfl (Nat.lt_add_of_pos_right hlayout.nalloc)
  have hstore := hclaim.trans (.update hfirst x pool'.mem)
  refine ⟨_, hstore, hused', ?_, ?_⟩
  · have hparts : NgxList.parts { list with next := list.next ++ [⟨elts, 1⟩] } =
        list.parts ++ [⟨elts, 1⟩] := rfl
    refine listLayout_of_parts hparts ?_ hnew ?_ Nat.one_pos hlayout.nalloc
    · exact fun j part hj => hstore.owns (hlayout.owns j part hj)
    · intro part hpart
      rw [parts_eq] at hpart
      obtain hfront | hpart := List.mem_append.mp hpart
      · exact hlayout.full part hfront
      · rw [List.mem_singleton.mp hpart]
        exact hfull
  · have hone : partsElements (Function.update pool'.mem elts x) [⟨elts, 1⟩] = [x] := by
      show cells _ elts (elts + 1) ++ [] = [x]
      rw [cells_update_append x le_rfl, cells_self]
      rfl
    rw [partsElements_append, hone, partsElements_of_writes hstore hlayout.owns hlayout.fits
      fun j hj heq => hj.ne (hinj heq)]
    rfl

/-- A last part with room gets the element. -/
theorem ListLayout.nextElement (hlayout : ListLayout owner block list)
    (hinj : Function.Injective block) (hroom : list.last.nelts ≠ list.nalloc) (mem : ℕ → α)
    (x : α) :
    Writes owner owner (block list.parts.dropLast.length) mem
        (Function.update mem (list.last.elts + list.last.nelts) x) ∧
      ListLayout owner block (list.setLast { list.last with nelts := list.last.nelts + 1 }) ∧
      (list.setLast { list.last with nelts := list.last.nelts + 1 }).elements
          (Function.update mem (list.last.elts + list.last.nelts) x) =
        list.elements mem ++ [x] := by
  have hfront : ∀ j part, list.parts.dropLast[j]? = some part →
      Owns owner (block j) part.elts (part.elts + list.nalloc) := by
    intro j part hj
    apply hlayout.owns j part
    rw [parts_eq, List.getElem?_append_left (List.getElem?_eq_some_iff.mp hj).1]
    exact hj
  have hlast : Owns owner (block list.parts.dropLast.length) list.last.elts
      (list.last.elts + list.nalloc) := by
    apply hlayout.owns
    have hparts := parts_eq list
    generalize list.parts.dropLast = front at hparts ⊢
    rw [hparts, List.getElem?_append_right le_rfl, Nat.sub_self, List.getElem?_cons_zero]
  have hlt : list.last.nelts < list.nalloc := lt_of_le_of_ne hlayout.last hroom
  have hstore : Writes owner owner (block list.parts.dropLast.length) mem
      (Function.update mem (list.last.elts + list.last.nelts) x) :=
    .update (hlast _ (Nat.le_add_right _ _) (by omega)) x mem
  refine ⟨hstore, ?_, ?_⟩
  · have hnalloc : (list.setLast { list.last with nelts := list.last.nelts + 1 }).nalloc =
        list.nalloc := by
      unfold NgxListT.setLast
      split <;> rfl
    rw [← hnalloc] at hfront hlast hlt
    apply listLayout_of_parts (parts_setLast list _) hfront hlast _ (Nat.succ_pos _) hlt
    intro part hpart
    rw [hnalloc]
    exact hlayout.full part hpart
  · show partsElements _ (list.setLast _).parts = partsElements _ list.parts ++ [x]
    conv_rhs => rw [parts_eq]
    rw [parts_setLast, partsElements_append, partsElements_append, List.append_assoc,
      partsElements_of_writes hstore hfront (fun part hpart => (hlayout.full part hpart).le)
        fun j hj heq => hj.ne (hinj heq)]
    congr 1
    show cells _ list.last.elts (list.last.elts + (list.last.nelts + 1)) ++ [] =
      (cells _ list.last.elts (list.last.elts + list.last.nelts) ++ []) ++ [x]
    rw [List.append_nil, List.append_nil]
    exact cells_update_append x (Nat.le_add_right _ _)

/-- A push appends its element to the list, unless there is no memory for it. -/
theorem ngxListPush_store {elts : Option ℕ} (hlayout : ListLayout owner block list)
    (hinj : Function.Injective block) (hused : OwnedUsed owner pool)
    (h : ngxListPush elts pool list = some (pool', list', p)) (x : α) :
    (elts = none ∧ pool'.store p x = pool ∧ list' = list) ∨
      ∃ owner' j, Writes owner owner' (block j) pool.mem (pool'.store p x).mem ∧
        OwnedUsed owner' (pool'.store p x) ∧ ListLayout owner' block list' ∧
        list'.elements (pool'.store p x).mem = list.elements pool.mem ++ [x] := by
  unfold ngxListPush at h
  split at h
  case isTrue hfull =>
    cases elts with
    | none =>
      obtain ⟨rfl, hrest⟩ := Prod.mk.inj (Option.some.inj h)
      obtain ⟨rfl, rfl⟩ := Prod.mk.inj hrest
      exact .inl ⟨rfl, rfl, rfl⟩
    | some elts =>
      obtain ⟨pool₁, hpalloc, heq⟩ := Option.map_eq_some_iff.mp h
      obtain ⟨rfl, hrest⟩ := Prod.mk.inj heq
      obtain ⟨rfl, rfl⟩ := Prod.mk.inj hrest
      obtain ⟨owner', hstore, hused', hlayout', helements⟩ :=
        hlayout.newPart hinj hused hfull hpalloc x
      exact .inr ⟨owner', _, hstore, hused', hlayout', helements⟩
  case isFalse hroom =>
    obtain ⟨rfl, hrest⟩ := Prod.mk.inj (Option.some.inj h)
    obtain ⟨rfl, rfl⟩ := Prod.mk.inj hrest
    obtain ⟨hstore, hlayout', helements⟩ := hlayout.nextElement hinj hroom pool.mem x
    exact .inr ⟨owner, _, hstore, hused, hlayout', helements⟩

-- ════════════════════════════════════════════════════════════════════════
-- The whole pool
-- ════════════════════════════════════════════════════════════════════════

theorem ArrayLayout.frame {c : γ} (h : ArrayLayout owner c array)
    (hw : Writes owner owner' b mem mem') (hne : c ≠ b) :
    ArrayLayout owner' c array ∧ array.elements mem' = array.elements mem := by
  have helements : Owns owner c array.elts (array.elts + array.nelts) :=
    fun x hs ht => h.owns x hs (ht.trans_le (Nat.add_le_add_left h.nelts _))
  exact ⟨⟨hw.owns h.owns, h.nelts, h.nalloc⟩, hw.cells helements hne⟩

theorem ListLayout.frame (h : ListLayout owner block list) (hw : Writes owner owner' b mem mem')
    (hne : ∀ j, block j ≠ b) :
    ListLayout owner' block list ∧ list.elements mem' = list.elements mem :=
  ⟨⟨fun j part hj => hw.owns (h.owns j part hj), h.full, h.last, h.nonempty, h.nalloc⟩,
    partsElements_of_writes hw h.owns h.fits fun j _ => hne j⟩

/-- The arrays and the lists of a pool own cells of their own. -/
structure HeapLayout (owner : ℕ → Option (Block ι κ)) (h : ContainerHeap ι κ α) : Prop where
  used : OwnedUsed owner h.pool
  arrays : ∀ i array, h.arrays i = some array → ArrayLayout owner (.array i) array
  lists : ∀ k list, h.lists k = some list → ListLayout owner (.part k) list

theorem Block.part_injective (k : κ) : Function.Injective (Block.part (ι := ι) k) :=
  fun _ _ h => (Block.part.inj h).2

theorem update_eq_some {δ : Type*} [DecidableEq ι] {f : ι → Option δ} {i i' : ι} {v : Option δ}
    {a : δ} (h : Function.update f i v i' = some a) :
    (i' = i ∧ v = some a) ∨ (i' ≠ i ∧ f i' = some a) := by
  rw [Function.update_apply] at h
  split at h
  case isTrue heq => exact .inl ⟨heq, h⟩
  case isFalse hne => exact .inr ⟨hne, h⟩

/-- What is read of a family at one place, when the reading changes nowhere else. -/
theorem map_update {δ ε : Type*} [DecidableEq ι] {f : ι → Option δ} {i : ι} {v : Option δ}
    {g g' : δ → ε} (h : ∀ i' a, i' ≠ i → f i' = some a → g' a = g a) :
    (fun i' => (Function.update f i v i').map g') =
      Function.update (fun i' => (f i').map g) i (v.map g') := by
  funext i'
  by_cases heq : i' = i
  · subst heq
    rw [Function.update_self, Function.update_self]
  · rw [Function.update_of_ne heq, Function.update_of_ne heq]
    exact Option.map_congr fun a ha => h i' a heq ha

variable [DecidableEq ι] [DecidableEq κ] {blocks blocks' : ℕ → Option (Block ι κ)}
  {h h' : ContainerHeap ι κ α} {op : ContainerOp ι κ α} {ops : List (ContainerOp ι κ α)}

omit [DecidableEq κ] in
/-- A use of one array leaves the others, and the lists, alone. -/
theorem HeapLayout.setArray {i : ι} (hlayout : HeapLayout blocks h)
    (hw : Writes blocks blocks' (.array i) h.pool.mem pool'.mem) (hused : OwnedUsed blocks' pool')
    (array' : Option NgxArrayT)
    (harray : ∀ array, array' = some array → ArrayLayout blocks' (.array i) array) :
    HeapLayout blocks' { h with pool := pool', arrays := Function.update h.arrays i array' } ∧
      ContainerHeap.contents { h with
          pool := pool', arrays := Function.update h.arrays i array' } =
        { h.contents with
          arrays := Function.update h.contents.arrays i
            (array'.map fun array => array.elements pool'.mem) } := by
  have hothers : ∀ i' array, i' ≠ i → h.arrays i' = some array →
      ArrayLayout blocks' (.array i') array ∧
        array.elements pool'.mem = array.elements h.pool.mem :=
    fun i' array hne hi' =>
      (hlayout.arrays i' array hi').frame hw fun hb => hne (Block.array.inj hb)
  have hlists : ∀ k list, h.lists k = some list → ListLayout blocks' (.part k) list ∧
      list.elements pool'.mem = list.elements h.pool.mem :=
    fun k list hk => (hlayout.lists k list hk).frame hw fun j hb => nomatch hb
  refine ⟨⟨hused, ?_, fun k list hk => (hlists k list hk).1⟩, ?_⟩
  · intro i' array hi'
    obtain ⟨rfl, hnew⟩ | ⟨hne, hold⟩ := update_eq_some hi'
    · exact harray array hnew
    · exact (hothers i' array hne hold).1
  · ext1
    · exact map_update fun i' array hne hi' => (hothers i' array hne hi').2
    · funext k
      exact Option.map_congr fun list hk => (hlists k list hk).2

omit [DecidableEq ι] in
/-- A use of one list leaves the others, and the arrays, alone. -/
theorem HeapLayout.setList {k : κ} {j : ℕ} (hlayout : HeapLayout blocks h)
    (hw : Writes blocks blocks' (.part k j) h.pool.mem pool'.mem)
    (hused : OwnedUsed blocks' pool') (list' : Option NgxListT)
    (hlist : ∀ list, list' = some list → ListLayout blocks' (.part k) list) :
    HeapLayout blocks' { h with pool := pool', lists := Function.update h.lists k list' } ∧
      ContainerHeap.contents { h with
          pool := pool', lists := Function.update h.lists k list' } =
        { h.contents with
          lists := Function.update h.contents.lists k
            (list'.map (NgxListT.elements pool'.mem)) } := by
  have hothers : ∀ k' list, k' ≠ k → h.lists k' = some list →
      ListLayout blocks' (.part k') list ∧ list.elements pool'.mem = list.elements h.pool.mem :=
    fun k' list hne hk' =>
      (hlayout.lists k' list hk').frame hw fun j' hb => hne (Block.part.inj hb).1
  have harrays : ∀ i array, h.arrays i = some array → ArrayLayout blocks' (.array i) array ∧
      array.elements pool'.mem = array.elements h.pool.mem :=
    fun i array hi => (hlayout.arrays i array hi).frame hw fun hb => nomatch hb
  refine ⟨⟨hused, fun i array hi => (harrays i array hi).1, ?_⟩, ?_⟩
  · intro k' list hk'
    obtain ⟨rfl, hnew⟩ | ⟨hne, hold⟩ := update_eq_some hk'
    · exact hlist list hnew
    · exact (hothers k' list hne hold).1
  · ext1
    · funext i
      exact Option.map_congr fun array hi => (harrays i array hi).2
    · exact map_update fun k' list hne hk' => (hothers k' list hne hk').2

theorem arrayLayout_create (owner : ℕ → Option γ) (b : γ) (elts : ℕ) {n : ℕ} (hn : 0 < n) :
    ArrayLayout (claim owner b elts (elts + n)) b ⟨⟨elts, 0⟩, n⟩ :=
  ⟨owns_claim owner b elts (elts + n), Nat.zero_le n, hn⟩

theorem listLayout_create (owner : ℕ → Option γ) (block : ℕ → γ) (elts : ℕ) {n : ℕ}
    (hn : 0 < n) :
    ListLayout (claim owner (block 0) elts (elts + n)) block ⟨⟨⟨elts, 0⟩, []⟩, n⟩ where
  owns := by
    intro j part hj
    obtain ⟨hlt, rfl⟩ := List.getElem?_eq_some_iff.mp hj
    obtain rfl : j = 0 := Nat.lt_one_iff.mp hlt
    exact owns_claim owner (block 0) elts (elts + n)
  full := fun part hpart => nomatch hpart
  last := Nat.zero_le n
  nonempty := fun hnext => absurd rfl hnext
  nalloc := hn

/-- A use is one of the sequences, and keeps the layout of the pool. -/
theorem containerStep_refines (hlayout : HeapLayout blocks h) (hroom : op.HasRoom)
    (hstep : containerStep h op = some h') :
    ContentsStep h.contents op h'.contents ∧ ∃ blocks', HeapLayout blocks' h' := by
  cases op with
  | arrayCreate i n elts =>
    cases elts with
    | none =>
      obtain rfl := Option.some.inj hstep
      obtain ⟨hlayout', hcontents⟩ := hlayout.setArray (.refl blocks (.array i) h.pool.mem)
        hlayout.used none fun array harray => nomatch harray
      exact ⟨hcontents ▸ .arrayCreate i n none, blocks, hlayout'⟩
    | some elts =>
      obtain ⟨pool, hpalloc, rfl⟩ := Option.map_eq_some_iff.mp hstep
      obtain ⟨hw, hused, -⟩ := palloc_writes hlayout.used hpalloc (.array i)
      obtain ⟨hlayout', hcontents⟩ := hlayout.setArray hw hused
        (some ⟨⟨elts, 0⟩, n⟩) fun array harray =>
          Option.some.inj harray ▸ arrayLayout_create blocks (.array i) elts hroom
      have hnil : NgxArray.elements pool.mem ⟨elts, 0⟩ = [] := cells_self pool.mem elts
      rw [Option.map_some, hnil] at hcontents
      exact ⟨hcontents ▸ .arrayCreate i n (some elts), _, hlayout'⟩
  | arrayPush i x grow =>
    obtain ⟨array, harray, hmap⟩ := Option.bind_eq_some_iff.mp hstep
    obtain ⟨⟨pool, array', p⟩, hpush, rfl⟩ := Option.map_eq_some_iff.mp hmap
    have hc : h.contents.arrays i = some (array.elements h.pool.mem) :=
      Option.map_eq_some_iff.mpr ⟨array, harray, rfl⟩
    obtain ⟨rfl, hpool, rfl⟩ | ⟨blocks', hw, hused, harray', helements⟩ :=
      ngxArrayPush_store (hlayout.arrays i array harray) hlayout.used hpush x
    · have hsame : Function.update h.arrays i (some array') = h.arrays := by
        rw [← harray, Function.update_eq_self]
      dsimp only
      rw [hpool, hsame]
      exact ⟨.arrayFull hc, blocks, hlayout⟩
    · obtain ⟨hlayout', hcontents⟩ := hlayout.setArray hw hused (some array')
        fun array heq => Option.some.inj heq ▸ harray'
      rw [Option.map_some, helements] at hcontents
      exact ⟨hcontents ▸ .arrayPush hc, blocks', hlayout'⟩
  | arrayReset i =>
    obtain ⟨array, harray, rfl⟩ := Option.map_eq_some_iff.mp hstep
    have hc : h.contents.arrays i = some (array.elements h.pool.mem) :=
      Option.map_eq_some_iff.mpr ⟨array, harray, rfl⟩
    have harray' := hlayout.arrays i array harray
    obtain ⟨hlayout', hcontents⟩ := hlayout.setArray (.refl blocks (.array i) h.pool.mem)
      hlayout.used (some (ngxArrayReset array)) fun array heq =>
        Option.some.inj heq ▸ ⟨harray'.owns, Nat.zero_le _, harray'.nalloc⟩
    have hnil : NgxArray.elements h.pool.mem (ngxArrayReset array).toNgxArray = [] :=
      cells_self h.pool.mem array.elts
    rw [Option.map_some, hnil] at hcontents
    exact ⟨hcontents ▸ .arrayReset hc, blocks, hlayout'⟩
  | listCreate k n elts =>
    cases elts with
    | none =>
      obtain rfl := Option.some.inj hstep
      obtain ⟨hlayout', hcontents⟩ := hlayout.setList (.refl blocks (.part k 0) h.pool.mem)
        hlayout.used none fun list hlist => nomatch hlist
      exact ⟨hcontents ▸ .listCreate k n none, blocks, hlayout'⟩
    | some elts =>
      obtain ⟨pool, hpalloc, rfl⟩ := Option.map_eq_some_iff.mp hstep
      obtain ⟨hw, hused, -⟩ := palloc_writes hlayout.used hpalloc (.part k 0)
      obtain ⟨hlayout', hcontents⟩ := hlayout.setList hw hused
        (some ⟨⟨⟨elts, 0⟩, []⟩, n⟩) fun list hlist =>
          Option.some.inj hlist ▸ listLayout_create blocks (.part k) elts hroom
      have hnil : NgxListT.elements pool.mem ⟨⟨⟨elts, 0⟩, []⟩, n⟩ = [] := by
        show cells pool.mem elts (elts + 0) ++ [] = []
        rw [Nat.add_zero, cells_self]
        rfl
      rw [Option.map_some, hnil] at hcontents
      exact ⟨hcontents ▸ .listCreate k n (some elts), _, hlayout'⟩
  | listPush k x elts =>
    obtain ⟨list, hlist, hmap⟩ := Option.bind_eq_some_iff.mp hstep
    obtain ⟨⟨pool, list', p⟩, hpush, rfl⟩ := Option.map_eq_some_iff.mp hmap
    have hc : h.contents.lists k = some (list.elements h.pool.mem) :=
      Option.map_eq_some_iff.mpr ⟨list, hlist, rfl⟩
    obtain ⟨rfl, hpool, rfl⟩ | ⟨blocks', j, hw, hused, hlist', helements⟩ :=
      ngxListPush_store (hlayout.lists k list hlist) (Block.part_injective k) hlayout.used hpush x
    · have hsame : Function.update h.lists k (some list') = h.lists := by
        rw [← hlist, Function.update_eq_self]
      dsimp only
      rw [hpool, hsame]
      exact ⟨.listFull hc, blocks, hlayout⟩
    · obtain ⟨hlayout', hcontents⟩ := hlayout.setList hw hused (some list')
        fun list heq => Option.some.inj heq ▸ hlist'
      rw [Option.map_some, helements] at hcontents
      exact ⟨hcontents ▸ .listPush hc, blocks', hlayout'⟩

/-- The uses of a run are those of the sequences, and keep the layout of the pool. -/
theorem containerRun_refines (hlayout : HeapLayout blocks h) (hroom : ∀ op ∈ ops, op.HasRoom)
    (hexec : exec containerStep h ops = some h') :
    Runs ContentsStep h.contents ops h'.contents ∧ ∃ blocks', HeapLayout blocks' h' := by
  induction ops generalizing h blocks with
  | nil =>
    obtain rfl := Option.some.inj hexec
    exact ⟨.nil _, blocks, hlayout⟩
  | cons op ops ih =>
    obtain ⟨h₁, hstep, hexec⟩ := Option.bind_eq_some_iff.mp hexec
    obtain ⟨hfirst, blocks₁, hlayout₁⟩ :=
      containerStep_refines hlayout (hroom op List.mem_cons_self) hstep
    obtain ⟨hrest, hlayout'⟩ :=
      ih hlayout₁ (fun op' hop' => hroom op' (List.mem_cons_of_mem op hop')) hexec
    exact ⟨.cons hfirst hrest, hlayout'⟩

-- ════════════════════════════════════════════════════════════════════════
-- What the macros find
-- ════════════════════════════════════════════════════════════════════════

/-- Where the elements of lists of one length stand in their concatenation. -/
theorem getElem?_flatten_of_full {n : ℕ} (hn : 0 < n) (front : List (List α)) (last : List α)
    (hfull : ∀ l ∈ front, l.length = n) (hlast : last.length ≤ n) (k : ℕ) :
    (front ++ [last]).flatten[k]? = (front ++ [last])[k / n]?.bind fun l => l[k % n]? := by
  induction front generalizing k with
  | nil =>
    rw [List.nil_append, List.flatten_singleton]
    obtain hlt | hge := lt_or_ge k n
    · rw [Nat.div_eq_of_lt hlt, Nat.mod_eq_of_lt hlt]
      rfl
    · have hpos : 1 ≤ k / n := (Nat.one_le_div_iff hn).mpr hge
      rw [List.getElem?_eq_none (hlast.trans hge), List.getElem?_eq_none hpos]
      rfl
  | cons l front ih =>
    have hl : l.length = n := hfull l List.mem_cons_self
    rw [List.cons_append, List.flatten_cons, List.getElem?_append, hl]
    obtain hlt | hge := lt_or_ge k n
    · rw [if_pos hlt, Nat.div_eq_of_lt hlt, Nat.mod_eq_of_lt hlt]
      rfl
    · rw [if_neg (not_lt.mpr hge), ih fun l' hl' => hfull l' (List.mem_cons_of_mem l hl'),
        Nat.div_eq_sub_div hn hge, Nat.mod_eq_sub_mod hge, List.getElem?_cons_succ]

/-- The element `n` of a list is in the part `n / nalloc`, at the place `n % nalloc`. -/
theorem ListLayout.exists_part (h : ListLayout owner block list) {n : ℕ} {x : α}
    (hx : (list.elements mem)[n]? = some x) :
    ∃ part, list.parts[n / list.nalloc]? = some part ∧
      mem (part.elts + n % list.nalloc) = x := by
  have hflatten := getElem?_flatten_of_full h.nalloc
    (list.parts.dropLast.map (NgxListPart.elements mem))
    (list.last.elements mem) ?_ ?_ n
  · rw [← List.map_singleton, ← List.map_append, ← parts_eq] at hflatten
    obtain ⟨l, hl, hget⟩ := Option.bind_eq_some_iff.mp (hflatten.symm.trans hx)
    rw [List.getElem?_map] at hl
    obtain ⟨part, hpart, rfl⟩ := Option.map_eq_some_iff.mp hl
    refine ⟨part, hpart, ?_⟩
    rw [NgxListPart.elements, cells, List.getElem?_map] at hget
    obtain ⟨y, hy, rfl⟩ := Option.map_eq_some_iff.mp hget
    obtain ⟨hlt, rfl⟩ := List.getElem?_eq_some_iff.mp hy
    rw [List.getElem_range', Nat.one_mul]
  · intro l hl
    obtain ⟨part, hpart, rfl⟩ := List.mem_map.mp hl
    rw [NgxListPart.elements, length_cells, Nat.add_sub_cancel_left]
    exact h.full part hpart
  · rw [NgxListPart.elements, length_cells, Nat.add_sub_cancel_left]
    exact h.last

/-- The first part of a list tells whether the list is empty. -/
theorem ListLayout.empty_iff (h : ListLayout owner block list) (mem : ℕ → α) :
    ngxListEmpty list = true ↔ list.elements mem = [] := by
  have hfirst : list.part.elements mem = [] ↔ list.part.nelts = 0 := by
    rw [NgxListPart.elements, cells_eq_nil_iff]
    omega
  have helements : list.elements mem = list.part.elements mem ++ partsElements mem list.next :=
    List.flatten_cons
  rw [ngxListEmpty, beq_iff_eq, helements, List.append_eq_nil_iff, hfirst]
  constructor
  · intro hzero
    refine ⟨hzero, ?_⟩
    have hnext : list.next = [] := by
      by_contra hne
      have hfull := h.full list.part (by
        show list.part ∈ (list.part :: list.next).dropLast
        rw [List.dropLast_cons_of_ne_nil hne]
        exact List.mem_cons_self)
      exact h.nalloc.ne (hzero.symm.trans hfull)
    rw [hnext]
    rfl
  · exact And.left

/-- **Containers as sequences.** Behind any uses of any number of arrays and lists that share a
pool, whatever addresses it hands out and whenever it has no memory left, each of them holds the
sequence that the uses of it have made. Its macros find what is in the sequence, and a list has
its element `n` in the part `n / nalloc`. -/
theorem containers_run_refine {mem₀ : ℕ → α} (hroom : ∀ op ∈ ops, op.HasRoom)
    (hexec : exec containerStep (.init mem₀) ops = some h) {σ : Type*} (body : σ → α → σ × Exit)
    (s : σ) :
    Runs ContentsStep ⟨fun _ => none, fun _ => none⟩ ops h.contents ∧
      (∀ i array, h.arrays i = some array →
        (ngxArrayEmpty array = true ↔ array.elements h.pool.mem = []) ∧
        ngxArrayNelts array = (array.elements h.pool.mem).length ∧
        ngxArrayNelts array ≤ ngxArrayCapacity array ∧
        RunsOn (ngxArrayEach h.pool.mem array.toNgxArray) body s
          (upToBreak body s (array.elements h.pool.mem))) ∧
      ∀ k list, h.lists k = some list →
        (ngxListEmpty list = true ↔ list.elements h.pool.mem = []) ∧
        (∀ n x, (list.elements h.pool.mem)[n]? = some x →
          ∃ part, list.parts[n / list.nalloc]? = some part ∧
            h.pool.mem (part.elts + n % list.nalloc) = x) ∧
        (Passes body s (list.elements h.pool.mem) →
          RunsOn (ngxListEach h.pool.mem list.toNgxList) body s (list.elements h.pool.mem)) := by
  have hinit : HeapLayout (fun _ => none) (.init mem₀ : ContainerHeap ι κ α) :=
    ⟨fun x hx => absurd rfl hx, fun i array hi => (nomatch hi), fun k list hk => (nomatch hk)⟩
  obtain ⟨hrun, blocks, hlayout⟩ := containerRun_refines hinit hroom hexec
  refine ⟨hrun, fun i array hi => ?_, fun k list hk => ?_⟩
  · have hlength : (array.elements h.pool.mem).length = array.nelts := by
      rw [NgxArray.elements, length_cells, Nat.add_sub_cancel_left]
    refine ⟨?_, hlength.symm, (hlayout.arrays i array hi).nelts,
      ngxArrayEach_runsOn h.pool.mem array.toNgxArray body s⟩
    rw [ngxArrayEmpty, beq_iff_eq, ← hlength, List.length_eq_zero_iff]
  · have hlist := hlayout.lists k list hk
    exact ⟨hlist.empty_iff h.pool.mem, fun n x hx => hlist.exists_part hx,
      fun hpasses => ngxListEach_runsOn_of_passes hpasses⟩

/-- An array that moves away from a list, and the list with its second part. -/
theorem containers_run_refine_two :
    ∃ h, exec containerStep (.init fun _ => 0)
        [.arrayCreate () 1 (some 10), .arrayPush () 7 none, .listCreate () 1 (some 11),
          .listPush () 5 none, .arrayPush () 8 (some (.moved 20)), .listPush () 6 (some 12),
          .listPush () 4 none] = some h ∧
      h.contents.arrays () = some [7, 8] ∧ h.contents.lists () = some [5, 6] ∧
      Runs ContentsStep ⟨fun _ => none, fun _ => none⟩
        [.arrayCreate () 1 (some 10), .arrayPush () 7 none, .listCreate () 1 (some 11),
          .listPush () 5 none, .arrayPush () 8 (some (.moved 20)), .listPush () 6 (some 12),
          .listPush () 4 none] h.contents := by
  have hexec : exec containerStep (.init fun _ => 0)
      [.arrayCreate () 1 (some 10), .arrayPush () 7 none, .listCreate () 1 (some 11),
        .listPush () 5 none, .arrayPush () 8 (some (.moved 20)), .listPush () 6 (some 12),
        .listPush () 4 none] = some _ := rfl
  have hroom : ∀ op ∈ [.arrayCreate () 1 (some 10), .arrayPush () 7 none,
      .listCreate () 1 (some 11), .listPush () 5 none, .arrayPush () 8 (some (.moved 20)),
      .listPush () 6 (some 12), .listPush () 4 none], ContainerOp.HasRoom op := by
    simp [ContainerOp.HasRoom]
  exact ⟨_, hexec, rfl, rfl,
    (containers_run_refine hroom hexec (fun (s : Unit) x => (s, Exit.cont)) ()).1⟩

end NgxNdg
