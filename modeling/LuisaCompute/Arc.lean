import Mathlib.Data.List.Basic

/-! # `Arc` allocations

`std::sync::Arc` as the runtime uses it. `Arc::new` allocates a cell with strong count one,
`Arc::clone` increments the count, and dropping an `Arc` decrements it and hands the shared value
back when the count reaches zero, so that the caller runs its destructor. A pointer is an index
into the list of cells. Cells are never reused: a dropped value keeps its cell, with count zero.
-/

namespace LuisaCompute

/-- Counting an element of a flattened list, after one entry of the outer list is replaced. -/
theorem count_flatMap_set {α β : Type} [BEq β] (f : α → List β) (x : β) :
    ∀ (l : List α) (i : Nat) {a : α}, l[i]? = some a → ∀ b,
      ((l.set i b).flatMap f).count x + (f a).count x = (l.flatMap f).count x + (f b).count x
  | _ :: _, 0, _, h, _ => by
      simp only [List.getElem?_cons_zero, Option.some.injEq] at h
      subst h
      simp only [List.set_cons_zero, List.flatMap_cons, List.count_append]
      omega
  | _ :: l, i + 1, _, h, b => by
      simp only [List.getElem?_cons_succ] at h
      have ih := count_flatMap_set f x l i h b
      simp only [List.set_cons_succ, List.flatMap_cons, List.count_append]
      omega

/-- Replacing an entry by one with the same image leaves a flattened list unchanged. -/
theorem flatMap_set_of_eq {α β : Type} (f : α → List β) :
    ∀ (l : List α) (i : Nat) {a b : α}, l[i]? = some a → f b = f a →
      (l.set i b).flatMap f = l.flatMap f
  | _ :: _, 0, _, _, h, hb => by
      simp only [List.getElem?_cons_zero, Option.some.injEq] at h
      subst h
      simp [hb]
  | _ :: l, i + 1, _, _, h, hb => by
      simp only [List.getElem?_cons_succ] at h
      simp [flatMap_set_of_eq f l i h hb]

theorem getElem?_set_of_some {α : Type} {l : List α} {p q : Nat} {c b : α}
    (hc : l[p]? = some c) : (l.set p b)[q]? = if q = p then some b else l[q]? := by
  have hp : p < l.length := (List.getElem?_eq_some_iff.mp hc).1
  by_cases hq : q = p
  · subst hq; simp [hp]
  · simp [List.getElem?_set_ne (Ne.symm hq), hq]

theorem getElem?_append_singleton {α : Type} (l : List α) (a : α) (q : Nat) :
    (l ++ [a])[q]? = if q = l.length then some a else l[q]? := by
  rcases Nat.lt_trichotomy q l.length with hq | rfl | hq
  · simp [List.getElem?_append_left hq, Nat.ne_of_lt hq]
  · simp
  · rw [List.getElem?_eq_none (by simp; omega), List.getElem?_eq_none (by omega),
      if_neg (Nat.ne_of_gt hq)]

/-- One `Arc` allocation: the shared value and its strong count. -/
structure ArcCell (α : Type) where
  val : α
  strong : Nat
deriving Repr, DecidableEq

/-- The `Arc` allocations of one type, indexed by pointer. -/
structure ArcHeap (α : Type) where
  cells : List (ArcCell α)
deriving Repr, DecidableEq

namespace ArcHeap

variable {α β : Type} (h : ArcHeap α)

/-- `Arc::strong_count`; zero for a pointer never allocated. -/
def strong (p : Nat) : Nat := (h.cells[p]?.map ArcCell.strong).getD 0

/-- The value behind a pointer. It stays readable after the value is dropped, since a pointer
is never reused. -/
def get? (p : Nat) : Option α := h.cells[p]?.map ArcCell.val

/-- `Arc::new`: a fresh pointer with strong count one. -/
def alloc (a : α) : Nat × ArcHeap α := (h.cells.length, ⟨h.cells ++ [⟨a, 1⟩]⟩)

/-- `Arc::clone`. -/
def clone (p : Nat) : ArcHeap α :=
  match h.cells[p]? with
  | some c => ⟨h.cells.set p ⟨c.val, c.strong + 1⟩⟩
  | none => h

/-- Dropping one `Arc`: `fetch_sub(1)`, and the shared value when that was the last reference. -/
def release (p : Nat) : ArcHeap α × Option α :=
  match h.cells[p]? with
  | some c =>
      if c.strong = 1 then (⟨h.cells.set p ⟨c.val, 0⟩⟩, some c.val)
      else (⟨h.cells.set p ⟨c.val, c.strong - 1⟩⟩, none)
  | none => (h, none)

/-- The references held by the values still alive, each value contributing `refs`. -/
def liveRefs (refs : α → List β) : List β :=
  h.cells.flatMap fun c => if 0 < c.strong then refs c.val else []

variable {h}

theorem strong_eq_of_get? {p : Nat} {c : ArcCell α} (hc : h.cells[p]? = some c) :
    h.strong p = c.strong := by
  simp [strong, hc]

theorem exists_cell_of_strong_pos {p : Nat} (hp : 0 < h.strong p) :
    ∃ c, h.cells[p]? = some c ∧ h.strong p = c.strong := by
  cases hc : h.cells[p]? with
  | none => simp [strong, hc] at hp
  | some c => exact ⟨c, rfl, strong_eq_of_get? hc⟩

theorem get?_isSome_of_strong_pos {p : Nat} (hp : 0 < h.strong p) : (h.get? p).isSome := by
  obtain ⟨c, hc, -⟩ := exists_cell_of_strong_pos hp
  simp [get?, hc]

@[simp] theorem alloc_fst : (h.alloc a).1 = h.cells.length := rfl

@[simp] theorem get?_alloc (a : α) (q : Nat) :
    (h.alloc a).2.get? q = if q = h.cells.length then some a else h.get? q := by
  simp only [alloc, get?, getElem?_append_singleton]
  split <;> rfl

@[simp] theorem strong_alloc (a : α) (q : Nat) :
    (h.alloc a).2.strong q = if q = h.cells.length then 1 else h.strong q := by
  simp only [alloc, strong, getElem?_append_singleton]
  split <;> rfl

theorem liveRefs_alloc (refs : α → List β) (a : α) :
    (h.alloc a).2.liveRefs refs = h.liveRefs refs ++ refs a := by
  simp [alloc, liveRefs]

@[simp] theorem get?_clone (p q : Nat) : (h.clone p).get? q = h.get? q := by
  unfold clone
  split
  next c hc =>
    simp only [get?, getElem?_set_of_some hc]
    split
    · subst q; simp [hc]
    · rfl
  next => rfl

theorem strong_clone {p : Nat} (hp : 0 < h.strong p) (q : Nat) :
    (h.clone p).strong q = h.strong q + if q = p then 1 else 0 := by
  obtain ⟨c, hc, hs⟩ := exists_cell_of_strong_pos hp
  simp only [clone, hc, strong, getElem?_set_of_some hc]
  split
  · subst q; simp [hc]
  · simp

theorem strong_clone_eq_zero {p : Nat} (hp : 0 < h.strong p) (q : Nat) :
    (h.clone p).strong q = 0 ↔ h.strong q = 0 := by
  rw [strong_clone hp]
  split
  · subst q; omega
  · simp

theorem liveRefs_clone {p : Nat} (hp : 0 < h.strong p) (refs : α → List β) :
    (h.clone p).liveRefs refs = h.liveRefs refs := by
  obtain ⟨c, hc, hs⟩ := exists_cell_of_strong_pos hp
  simp only [clone, hc, liveRefs]
  exact flatMap_set_of_eq _ _ _ hc (by simp only [← hs, hp, Nat.succ_pos, if_true])

@[simp] theorem get?_release (p q : Nat) : (h.release p).1.get? q = h.get? q := by
  unfold release
  split
  next c hc =>
    split <;>
    · simp only [get?, getElem?_set_of_some hc]
      split
      · subst q; simp [hc]
      · rfl
  next => rfl

theorem strong_release (p q : Nat) :
    (h.release p).1.strong q = h.strong q - if q = p then 1 else 0 := by
  unfold release
  split
  next c hc =>
    split <;>
    · simp only [strong, getElem?_set_of_some hc]
      split
      · subst q; simp [hc] <;> omega
      · simp
  next hc => by_cases hq : q = p <;> simp [strong, hc, hq]

theorem release_snd (p : Nat) :
    (h.release p).2 = if h.strong p = 1 then h.get? p else none := by
  unfold release
  split
  next c hc => split <;> simp_all [strong, get?]
  next hc => simp [strong, hc]

/-- A release hands back the value exactly when it drops the last reference. -/
theorem release_snd_eq_some {p : Nat} {a : α} (ha : (h.release p).2 = some a) :
    h.get? p = some a ∧ h.strong p = 1 := by
  rw [release_snd] at ha
  split at ha
  · exact ⟨ha, ‹_›⟩
  · cases ha

theorem strong_release_eq_zero {p : Nat} (hp : 0 < h.strong p) (q : Nat) :
    (h.release p).1.strong q = 0 ↔ h.strong q = 0 ∨ q = p ∧ h.strong p = 1 := by
  rw [strong_release]
  split
  · subst q; omega
  · simp [*]

theorem strong_length : h.strong h.cells.length = 0 := by
  simp [strong]

theorem get?_length : h.get? h.cells.length = none := by
  simp [get?]

theorem mem_liveRefs {refs : α → List β} {p : Nat} {a : α} {x : β} (hp : 0 < h.strong p)
    (ha : h.get? p = some a) (hx : x ∈ refs a) : x ∈ h.liveRefs refs := by
  obtain ⟨c, hc, hs⟩ := exists_cell_of_strong_pos hp
  have hca : c.val = a := by simpa [get?, hc] using ha
  refine List.mem_flatMap.mpr ⟨c, List.getElem?_mem hc, ?_⟩
  rw [if_pos (hs ▸ hp), hca]
  exact hx

/-- A reference held by a live value comes from a live cell. -/
theorem exists_of_mem_liveRefs {refs : α → List β} {x : β} (hx : x ∈ h.liveRefs refs) :
    ∃ p a, 0 < h.strong p ∧ h.get? p = some a ∧ x ∈ refs a := by
  obtain ⟨c, hc, hx⟩ := List.mem_flatMap.mp hx
  obtain ⟨p, hp⟩ := List.mem_iff_getElem?.mp hc
  split at hx
  · next hpos => exact ⟨p, c.val, by rwa [strong_eq_of_get? hp], by simp [get?, hp], hx⟩
  · cases hx

/-- Releasing a reference that is not the last one leaves every value alive. -/
theorem liveRefs_release_of_ne {p : Nat} (hp : 0 < h.strong p) (hne : h.strong p ≠ 1)
    (refs : α → List β) : (h.release p).1.liveRefs refs = h.liveRefs refs := by
  obtain ⟨c, hc, hs⟩ := exists_cell_of_strong_pos hp
  simp only [release, hc, ← hs, hne, if_false, liveRefs]
  exact flatMap_set_of_eq _ _ _ hc (by simp only [hs ▸ hp, if_true]; rw [if_pos (by omega)])

/-- Releasing the last reference drops exactly the references the value held. -/
theorem count_liveRefs_release_of_eq [BEq β] {p : Nat} {a : α} (hp : h.strong p = 1)
    (ha : h.get? p = some a) (refs : α → List β) (x : β) :
    ((h.release p).1.liveRefs refs).count x + (refs a).count x = (h.liveRefs refs).count x := by
  obtain ⟨c, hc, hs⟩ := exists_cell_of_strong_pos (hp ▸ Nat.one_pos)
  have hca : c.val = a := by simpa [get?, hc] using ha
  have key := count_flatMap_set (fun c : ArcCell α => if 0 < c.strong then refs c.val else [])
    x h.cells p hc ⟨c.val, 0⟩
  have hc1 : c.strong = 1 := hs ▸ hp
  simp only [hc1, Nat.one_pos, if_true, Nat.lt_irrefl, if_false, List.count_nil,
    Nat.add_zero, hca] at key
  simpa only [release, hc, hc1, if_true, liveRefs, hca] using key

end ArcHeap

end LuisaCompute
