import Mathlib.Data.List.Nodup
import Mathlib.Logic.Function.Basic

/-!
# Circular lists

Doubly linked lists that end where they begin, as `list.h` has them. Every
node has a pointer to the next and one to the previous node, and a list is
a node, its head, with the nodes one comes to from it before coming back.
A node is added or deleted by four or two writes, and `Circle` says what is
on the list then. Nodes that are not on the list keep their pointers, and so
other lists their nodes (`Circle.congr`).
-/

namespace Dmx4Linux2

variable {ν : Type*}

/-- The pointers of all nodes. -/
structure Links (ν : Type*) where
  next : ν → ν
  prev : ν → ν

namespace Links

section Operations

variable [DecidableEq ν] (l : Links ν)

/-- `INIT_LIST_HEAD`. -/
def initListHead (h : ν) : Links ν := ⟨Function.update l.next h h, Function.update l.prev h h⟩

/-- `__list_add`. -/
def listAddBetween (add prev next : ν) : Links ν where
  prev := Function.update (Function.update l.prev next add) add prev
  next := Function.update (Function.update l.next add next) prev add

/-- `list_add`. -/
def listAdd (add head : ν) : Links ν := l.listAddBetween add head (l.next head)

/-- `list_add_tail`. -/
def listAddTail (add head : ν) : Links ν := l.listAddBetween add (l.prev head) head

/-- `__list_del`. -/
def listDelBetween (prev next : ν) : Links ν where
  prev := Function.update l.prev next prev
  next := Function.update l.next prev next

/-- `list_del`. -/
def listDel (entry : ν) : Links ν := l.listDelBetween (l.prev entry) (l.next entry)

/-- `list_empty`. -/
def listEmpty (head : ν) : Bool := l.next head = head

end Operations

/-! ## What is on a list -/

variable {l l' : Links ν} {a b h x : ν} {xs ys : List ν}

/-- The nodes from `a` to `b`, linked in both directions. -/
def Chain (l : Links ν) : ν → List ν → ν → Prop
  | a, [], b => l.next a = b ∧ l.prev b = a
  | a, x :: xs, b => (l.next a = x ∧ l.prev x = a) ∧ Chain l x xs b

theorem chain_append : Chain l a (xs ++ x :: ys) b ↔ Chain l a xs x ∧ Chain l x ys b := by
  induction xs generalizing a with
  | nil => rfl
  | cons y xs ih => exact (and_congr_right fun _ => ih).trans and_assoc.symm

/-- A chain is read off the pointers that lead along it. -/
theorem Chain.congr (hc : Chain l a xs b) (hnext : ∀ n ∈ a :: xs, l'.next n = l.next n)
    (hprev : ∀ n ∈ xs ++ [b], l'.prev n = l.prev n) : Chain l' a xs b := by
  induction xs generalizing a with
  | nil => exact ⟨(hnext a (by simp)).trans hc.1, (hprev b (by simp)).trans hc.2⟩
  | cons x xs ih =>
    refine ⟨⟨(hnext a (by simp)).trans hc.1.1, (hprev x (by simp)).trans hc.1.2⟩, ?_⟩
    refine ih hc.2 (fun n hn => hnext n (List.mem_cons_of_mem a hn)) fun n hn => hprev n ?_
    exact List.mem_cons_of_mem x hn

/-- **The nodes on the list of a head**, in order. -/
structure Circle (l : Links ν) (h : ν) (xs : List ν) : Prop where
  chain : Chain l h xs h
  nodup : (h :: xs).Nodup

namespace Circle

/-- **A list keeps its nodes where their pointers are kept.** -/
theorem congr (hc : Circle l h xs) (hnext : ∀ n ∈ h :: xs, l'.next n = l.next n)
    (hprev : ∀ n ∈ h :: xs, l'.prev n = l.prev n) : Circle l' h xs := by
  refine ⟨hc.chain.congr hnext fun n hn => hprev n ?_, hc.nodup⟩
  simpa [or_comm] using hn

/-- The first node is the one behind the head. -/
theorem next_head (hc : Circle l h (x :: xs)) : l.next h = x := hc.chain.1.1

/-- The last is the one in front of it. -/
theorem prev_head_mem (hc : Circle l h xs) : l.prev h ∈ h :: xs := by
  rcases List.eq_nil_or_concat xs with rfl | ⟨ys, z, rfl⟩
  · have hprev : l.prev h = h := hc.chain.2
    simp [hprev]
  · rw [List.concat_eq_append] at hc ⊢
    have hprev : l.prev h = z := (chain_append.1 hc.chain).2.2
    simp [hprev]

/-- What is behind a node of the list is on it, or its head. -/
theorem next_mem (hc : Circle l h xs) (hx : x ∈ xs) : l.next x ∈ h :: xs := by
  obtain ⟨ys, zs, rfl⟩ := List.append_of_mem hx
  have hbehind := (chain_append.1 hc.chain).2
  cases zs with
  | nil =>
    have hnext : l.next x = h := hbehind.1
    simp [hnext]
  | cons z zs =>
    have hnext : l.next x = z := hbehind.1.1
    simp [hnext]

/-- What is in front of a node of the list is on it, or its head. -/
theorem prev_mem (hc : Circle l h xs) (hx : x ∈ xs) : l.prev x ∈ h :: xs := by
  obtain ⟨ys, zs, rfl⟩ := List.append_of_mem hx
  have hfront := (chain_append.1 hc.chain).1
  rcases List.eq_nil_or_concat ys with rfl | ⟨ys', y, rfl⟩
  · have hprev : l.prev x = h := hfront.2
    simp [hprev]
  · rw [List.concat_eq_append] at hfront ⊢
    have hprev : l.prev x = y := (chain_append.1 hfront).2.2
    simp [hprev]

/-- The pointer of the head leads to the first node, or back. -/
theorem next_head_eq (hc : Circle l h xs) : l.next h = xs.headD h := by
  cases xs with
  | nil => exact hc.chain.1
  | cons x xs => exact hc.next_head

/-- That of the first node leads to the second. -/
theorem next_first_eq (hc : Circle l h (x :: xs)) : l.next x = xs.headD h := by
  cases xs with
  | nil => exact hc.chain.2.1
  | cons y xs => exact hc.chain.2.1.1

variable [DecidableEq ν]

/-- **`list_empty` is exact.** -/
theorem listEmpty_iff (hc : Circle l h xs) : l.listEmpty h = true ↔ xs = [] := by
  rw [listEmpty, decide_eq_true_iff]
  cases xs with
  | nil => exact iff_of_true hc.chain.1 rfl
  | cons x xs =>
    refine iff_of_false (fun heq => ?_) (List.cons_ne_nil x xs)
    have hne := (List.nodup_cons.1 hc.nodup).1
    rw [hc.next_head] at heq
    exact hne (heq ▸ List.mem_cons_self)

/-- **A head that is initialised has nothing on its list.** -/
theorem initListHead : Circle (l.initListHead h) h [] where
  chain := ⟨Function.update_self .., Function.update_self ..⟩
  nodup := by simp

theorem congr_initListHead {h' : ν} (hc : Circle l h xs) (hne : h' ∉ h :: xs) :
    Circle (l.initListHead h') h xs := by
  have hnode : ∀ n ∈ h :: xs, n ≠ h' := fun n hn heq => hne (heq ▸ hn)
  refine hc.congr (fun n hn => ?_) fun n hn => ?_
  · exact Function.update_of_ne (hnode n hn) ..
  · exact Function.update_of_ne (hnode n hn) ..

/-! ## Adding -/

theorem listAddTail_next_of_ne {n : ν} (hlast : n ≠ l.prev h) (ha : n ≠ a) :
    (l.listAddTail a h).next n = l.next n :=
  (Function.update_of_ne hlast ..).trans (Function.update_of_ne ha ..)

theorem listAddTail_prev_of_ne {n : ν} (hh : n ≠ h) (ha : n ≠ a) :
    (l.listAddTail a h).prev n = l.prev n :=
  (Function.update_of_ne ha ..).trans (Function.update_of_ne hh ..)

/-- The node is linked between the last one and the head. -/
theorem chain_listAddTail (ha : a ∉ h :: xs) (hlast : l.prev h ∈ h :: xs) :
    (l.listAddTail a h).next (l.prev h) = a ∧ (l.listAddTail a h).prev a = l.prev h ∧
      Chain (l.listAddTail a h) a [] h := by
  have hah : a ≠ h := fun heq => ha (heq ▸ List.mem_cons_self)
  have halast : a ≠ l.prev h := fun heq => ha (heq ▸ hlast)
  refine ⟨Function.update_self .., Function.update_self .., ?_, ?_⟩
  · exact (Function.update_of_ne halast ..).trans (Function.update_self ..)
  · exact (Function.update_of_ne hah.symm ..).trans (Function.update_self ..)

/-- **`list_add_tail` appends a node that is not on the list.** -/
theorem listAddTail (hc : Circle l h xs) (ha : a ∉ h :: xs) :
    Circle (l.listAddTail a h) h (xs ++ [a]) := by
  have hnodup : (h :: (xs ++ [a])).Nodup := by
    rw [← List.cons_append]
    exact List.Nodup.append hc.nodup (List.nodup_singleton a) (by simpa using ha)
  obtain ⟨hnext, hprev, hend⟩ := chain_listAddTail ha hc.prev_head_mem
  refine ⟨chain_append.2 ⟨?_, hend⟩, hnodup⟩
  rcases List.eq_nil_or_concat xs with rfl | ⟨ys, z, rfl⟩
  · have hlast : l.prev h = h := hc.chain.2
    rw [hlast] at hnext hprev
    exact ⟨hnext, hprev⟩
  · rw [List.concat_eq_append] at *
    obtain ⟨hys, hlast⟩ := chain_append.1 hc.chain
    have hlast : l.prev h = z := hlast.2
    rw [hlast] at hnext hprev
    refine chain_append.2 ⟨?_, hnext, hprev⟩
    -- up to the last node nothing has changed
    have hz : ∀ n ∈ h :: ys, n ≠ z := by
      have hnodup' := hc.nodup
      rw [← List.cons_append] at hnodup'
      intro n hn heq
      exact List.disjoint_of_nodup_append hnodup' hn (List.mem_singleton.2 heq)
    have hh : ∀ n ∈ ys ++ [z], n ≠ h := fun n hn heq =>
      (List.nodup_cons.1 hc.nodup).1 (heq ▸ hn)
    refine hys.congr (fun n hn => ?_) fun n hn => ?_
    · refine listAddTail_next_of_ne (hlast ▸ hz n hn) fun heq => ha ?_
      rw [← heq, ← List.cons_append]
      exact List.mem_append_left _ hn
    · refine listAddTail_prev_of_ne (hh n hn) fun heq => ha ?_
      rw [← heq]
      exact List.mem_cons_of_mem h hn

/-- **Other lists are left alone.** -/
theorem congr_listAddTail {h' : ν} (hc : Circle l h xs) (hc' : Circle l h' ys)
    (hdisj : ∀ n ∈ h' :: ys, n ∉ h :: xs) (ha : a ∉ h' :: ys) :
    Circle (l.listAddTail a h) h' ys := by
  refine hc'.congr (fun n hn => ?_) fun n hn => ?_
  · refine listAddTail_next_of_ne (fun heq => hdisj n hn ?_) fun heq => ha (heq ▸ hn)
    rw [heq]
    exact hc.prev_head_mem
  · refine listAddTail_prev_of_ne (fun heq => hdisj n hn ?_) fun heq => ha (heq ▸ hn)
    rw [heq]
    exact List.mem_cons_self

/-- **`list_add` puts a node in front** that is not on the list. -/
theorem listAdd (hc : Circle l h xs) (ha : a ∉ h :: xs) : Circle (l.listAdd a h) h (a :: xs) := by
  have hah : a ≠ h := fun heq => ha (heq ▸ List.mem_cons_self)
  have hnodup : (h :: a :: xs).Nodup := by
    rw [List.nodup_cons, List.nodup_cons]
    refine ⟨?_, fun hmem => ha (List.mem_cons_of_mem h hmem), (List.nodup_cons.1 hc.nodup).2⟩
    rw [List.mem_cons, not_or]
    exact ⟨hah.symm, (List.nodup_cons.1 hc.nodup).1⟩
  have hnext : (l.listAdd a h).next h = a := Function.update_self ..
  have hprev : (l.listAdd a h).prev a = h := Function.update_self ..
  refine ⟨⟨⟨hnext, hprev⟩, ?_⟩, hnodup⟩
  cases xs with
  | nil =>
    have hfirst : l.next h = h := hc.chain.1
    rw [Links.listAdd, hfirst]
    exact ⟨(Function.update_of_ne hah ..).trans (Function.update_self ..),
      (Function.update_of_ne hah.symm ..).trans (Function.update_self ..)⟩
  | cons x xs =>
    have hxa : x ≠ a := fun heq => ha (by simp [heq])
    rw [Links.listAdd, hc.next_head]
    refine ⟨⟨(Function.update_of_ne hah ..).trans (Function.update_self ..),
      (Function.update_of_ne hxa ..).trans (Function.update_self ..)⟩, ?_⟩
    -- behind the first node nothing has changed
    refine hc.chain.2.congr (fun n hn => ?_) fun n hn => ?_
    · have hnh : n ≠ h := fun heq => (List.nodup_cons.1 hc.nodup).1 (heq ▸ hn)
      have hna : n ≠ a := fun heq => ha (heq ▸ List.mem_cons_of_mem h hn)
      exact (Function.update_of_ne hnh ..).trans (Function.update_of_ne hna ..)
    · have hmem : n ∈ h :: xs := by simpa [or_comm] using hn
      have hnx : n ≠ x := by
        rintro rfl
        rcases List.mem_cons.1 hmem with heq | hn
        · exact (List.nodup_cons.1 hc.nodup).1 (heq ▸ List.mem_cons_self)
        · exact (List.nodup_cons.1 (List.nodup_cons.1 hc.nodup).2).1 hn
      have hna : n ≠ a := by
        rintro rfl
        rcases List.mem_cons.1 hmem with heq | hn
        · exact hah heq
        · exact ha (by simp [hn])
      exact (Function.update_of_ne hna ..).trans (Function.update_of_ne hnx ..)

theorem congr_listAdd {h' : ν} (hc : Circle l h xs) (hc' : Circle l h' ys)
    (hdisj : ∀ n ∈ h' :: ys, n ∉ h :: xs) (ha : a ∉ h' :: ys) :
    Circle (l.listAdd a h) h' ys := by
  have hfirst : l.next h ∈ h :: xs := by
    rw [hc.next_head_eq]
    cases xs <;> simp
  have hna : ∀ n ∈ h' :: ys, n ≠ a := fun n hn heq => ha (heq ▸ hn)
  refine hc'.congr (fun n hn => ?_) fun n hn => ?_
  · have hnh : n ≠ h := fun heq => hdisj n hn (heq ▸ List.mem_cons_self)
    exact (Function.update_of_ne hnh ..).trans (Function.update_of_ne (hna n hn) ..)
  · have hnf : n ≠ l.next h := fun heq => hdisj n hn (heq ▸ hfirst)
    exact (Function.update_of_ne (hna n hn) ..).trans (Function.update_of_ne hnf ..)

/-! ## Deleting -/

theorem listDel_next_of_ne {n : ν} (h : n ≠ l.prev x) : (l.listDel x).next n = l.next n :=
  Function.update_of_ne h ..

theorem listDel_prev_of_ne {n : ν} (h : n ≠ l.next x) : (l.listDel x).prev n = l.prev n :=
  Function.update_of_ne h ..

/-- **`list_del` of the first node leaves the others.** -/
theorem listDel (hc : Circle l h (x :: xs)) : Circle (l.listDel x) h xs := by
  obtain ⟨⟨-, hprev⟩, hrest⟩ := hc.chain
  have hnodup : (h :: xs).Nodup :=
    hc.nodup.sublist ((List.sublist_cons_self x xs).cons_cons h)
  have hhead : (l.listDel x).next h = l.next x := by
    rw [Links.listDel, listDelBetween, hprev]
    exact Function.update_self ..
  have hback : (l.listDel x).prev (l.next x) = h := by
    rw [Links.listDel, listDelBetween, hprev]
    exact Function.update_self ..
  refine ⟨?_, hnodup⟩
  cases xs with
  | nil =>
    have hnext : l.next x = h := hrest.1
    rw [hnext] at hhead hback
    exact ⟨hhead, hback⟩
  | cons y ys =>
    obtain ⟨⟨hnext, -⟩, hys⟩ := hrest
    rw [hnext] at hhead hback
    refine ⟨⟨hhead, hback⟩, hys.congr (fun n hn => ?_) fun n hn => ?_⟩
    · refine listDel_next_of_ne fun heq => (List.nodup_cons.1 hnodup).1 ?_
      rwa [← hprev, ← heq]
    · refine listDel_prev_of_ne fun heq => ?_
      rw [hnext] at heq
      rw [heq] at hn
      have hy := List.nodup_cons.1 (List.nodup_cons.1 hnodup).2
      rcases List.mem_append.1 hn with hmem | hmem
      · exact hy.1 hmem
      · exact (List.nodup_cons.1 hnodup).1 (List.mem_singleton.1 hmem ▸ List.mem_cons_self)

theorem congr_listDel {h' : ν} (hc : Circle l h (x :: xs)) (hc' : Circle l h' ys)
    (hdisj : ∀ n ∈ h' :: ys, n ∉ h :: x :: xs) : Circle (l.listDel x) h' ys := by
  refine hc'.congr (fun n hn => ?_) fun n hn => ?_
  · refine listDel_next_of_ne fun heq => hdisj n hn ?_
    have hprev : l.prev x = h := hc.chain.1.2
    rw [heq, hprev]
    exact List.mem_cons_self
  · refine listDel_prev_of_ne fun heq => hdisj n hn ?_
    rw [heq]
    exact hc.next_mem List.mem_cons_self

/-- **`list_del` of any node leaves the others**, in order. -/
theorem listDel_of_append (hc : Circle l h (xs ++ x :: ys)) :
    Circle (l.listDel x) h (xs ++ ys) := by
  have hnodup : (h :: (xs ++ ys)).Nodup := by
    refine hc.nodup.sublist (List.Sublist.cons_cons h ?_)
    exact (List.Sublist.refl xs).append (List.sublist_cons_self x ys)
  have hchain : ∀ a zs, Chain l a (zs ++ x :: ys) h → (a :: (zs ++ x :: ys)).Nodup →
      h ∉ zs ++ x :: ys → Chain (l.listDel x) a (zs ++ ys) h := by
    intro a zs
    induction zs generalizing a with
    | nil =>
      rintro ⟨⟨-, hprev⟩, hrest⟩ hnd hout
      have hhead : (l.listDel x).next a = l.next x := by
        rw [Links.listDel, listDelBetween, hprev]
        exact Function.update_self ..
      have hback : (l.listDel x).prev (l.next x) = a := by
        rw [Links.listDel, listDelBetween, hprev]
        exact Function.update_self ..
      rw [List.nil_append] at hnd hout ⊢
      have ha : a ∉ x :: ys := (List.nodup_cons.1 hnd).1
      have hys : (x :: ys).Nodup := (List.nodup_cons.1 hnd).2
      cases ys with
      | nil =>
        have hnext : l.next x = h := hrest.1
        rw [hnext] at hhead hback
        exact ⟨hhead, hback⟩
      | cons y ys =>
        obtain ⟨⟨hnext, -⟩, hrest⟩ := hrest
        rw [hnext] at hhead hback
        refine ⟨⟨hhead, hback⟩, hrest.congr (fun n hn => ?_) fun n hn => ?_⟩
        · refine listDel_next_of_ne fun heq => ha ?_
          rw [← hprev, ← heq]
          exact List.mem_cons_of_mem x hn
        · refine listDel_prev_of_ne fun heq => ?_
          rw [hnext] at heq
          rw [heq] at hn
          rcases List.mem_append.1 hn with hmem | hmem
          · exact (List.nodup_cons.1 (List.nodup_cons.1 hys).2).1 hmem
          · exact hout (List.mem_singleton.1 hmem ▸ by simp)
    | cons z zs ih =>
      rintro ⟨⟨hnext, hprev⟩, hrest⟩ hnd hout
      rw [List.cons_append] at hnd hout
      have ha := (List.nodup_cons.1 hnd).1
      have hz := (List.nodup_cons.1 (List.nodup_cons.1 hnd).2).1
      have hchain := ih z hrest (List.nodup_cons.1 hnd).2 fun hmem =>
        hout (List.mem_cons_of_mem z hmem)
      -- the nodes around the deleted one are others
      have hpx : l.prev x ∈ z :: zs := by
        rcases List.eq_nil_or_concat zs with rfl | ⟨ws, w, rfl⟩
        · have hpx : l.prev x = z := hrest.1.2
          simp [hpx]
        · rw [List.concat_eq_append] at hrest ⊢
          have hpx : l.prev x = w :=
            (chain_append.1 (chain_append.1 hrest).1).2.2
          simp [hpx]
      have hnx : l.next x ∈ ys ++ [h] := by
        have hbehind := (chain_append.1 hrest).2
        cases ys with
        | nil =>
          have hnx : l.next x = h := hbehind.1
          simp [hnx]
        | cons y ys =>
          have hnx : l.next x = y := hbehind.1.1
          simp [hnx]
      refine ⟨⟨?_, ?_⟩, hchain⟩
      · rw [listDel_next_of_ne, hnext]
        intro heq
        rw [← heq] at hpx
        exact ha (by rcases List.mem_cons.1 hpx with h | h <;> simp [h])
      · rw [listDel_prev_of_ne, hprev]
        intro heq
        rw [← heq] at hnx
        rcases List.mem_append.1 hnx with hmem | hmem
        · exact hz (by simp [hmem])
        · exact hout (by simp [List.mem_singleton.1 hmem])
  exact ⟨hchain h xs hc.chain hc.nodup (List.nodup_cons.1 hc.nodup).1, hnodup⟩

theorem listDel_of_mem (hc : Circle l h xs) (hx : x ∈ xs) :
    Circle (l.listDel x) h (xs.erase x) := by
  obtain ⟨ys, zs, rfl⟩ := List.append_of_mem hx
  have hnot : x ∉ ys := by
    intro hmem
    have hnd := List.nodup_append.1 (List.nodup_cons.1 hc.nodup).2
    exact hnd.2.2 x hmem x List.mem_cons_self rfl
  rw [List.erase_append_right _ hnot, List.erase_cons_head]
  exact hc.listDel_of_append

/-- Other lists are left alone. -/
theorem congr_listDel_of_mem {h' : ν} (hc : Circle l h xs) (hx : x ∈ xs) (hc' : Circle l h' ys)
    (hdisj : ∀ n ∈ h' :: ys, n ∉ h :: xs) : Circle (l.listDel x) h' ys := by
  refine hc'.congr (fun n hn => ?_) fun n hn => ?_
  · exact listDel_next_of_ne fun heq => hdisj n hn (heq ▸ hc.prev_mem hx)
  · exact listDel_prev_of_ne fun heq => hdisj n hn (heq ▸ hc.next_mem hx)

end Circle

end Links

end Dmx4Linux2
