import LuisaCompute.Runtime.Model

/-! # Exact strong counts and the order of stream calls

`World.Valid w held` is the invariant of the runtime: every strong count equals the number of
references to it that live values hold, where `held` lists those held outside the heap (by the
caller, or released but not yet processed by the drop glue); every backend stream has one owner
(a device for its default stream, a non-default `StreamHandle` for its handle) and a handle no
backend has reused; a stream is destroyed exactly when its owner is dead; and every call names
only streams, and reaches only backends, whose destruction has not been called yet.

Each primitive of the model (a call, `Arc::clone`, `Arc::new`, the release of one reference)
preserves it, and so does every drop glue sequence.
-/

namespace LuisaCompute

/-- The stream a `StreamHandle` owns: its handle, unless it shares the device's default stream. -/
def StreamHandle.owned? : StreamHandle → Option ApiStream
  | .default _ _ => none
  | .nonDefault _ h => some h

/-- The owner of a backend stream. -/
inductive Owner
  | device (p : Nat)
  | stream (p : Nat)
deriving DecidableEq, Repr

/-- Some backend has received `destroy_stream` for the stream. -/
def Retired (calls : List Call) (s : ApiStream) : Prop := ∃ d, Call.destroyStream d s ∈ calls

theorem retired_append_iff {calls calls' : List Call} {s : ApiStream} :
    Retired (calls ++ calls') s ↔ Retired calls s ∨ Retired calls' s := by
  simp [Retired, exists_or]

theorem retired_singleton_iff {c : Call} {s : ApiStream} :
    Retired [c] s ↔ ∃ d, c = .destroyStream d s := by
  simp [Retired, eq_comm]

/-- A position in a list extended by one element is either the new last one or a position of
the list. -/
theorem eq_append_cons_of_append_singleton {α : Type} {l pre post : List α} {c x : α}
    (h : l ++ [x] = pre ++ c :: post) : (pre = l ∧ c = x) ∨ ∃ post', l = pre ++ c :: post' := by
  rcases List.eq_nil_or_concat post with rfl | ⟨post', y, rfl⟩
  · obtain ⟨rfl, hx⟩ := List.append_inj' h rfl
    exact .inl ⟨rfl, (List.cons.inj hx).1.symm⟩
  · rw [List.concat_eq_append, ← List.cons_append, ← List.append_assoc] at h
    exact .inr ⟨post', (List.append_inj' h rfl).1⟩

namespace World

variable (w : World)

/-- The stream an owner owns. -/
def ownedStream : Owner → Option ApiStream
  | .device p => (w.devices.get? p).map DeviceHandle.defaultStream
  | .stream p => (w.streams.get? p).bind StreamHandle.owned?

def ownerStrong : Owner → Nat
  | .device p => w.devices.strong p
  | .stream p => w.streams.strong p

/-- Every strong count is the number of strong references live values hold. -/
def Balanced (held : List Ptr) : Prop := ∀ q, w.strong q = (w.cellRefs ++ held).count q

/-- No call follows the destruction of a stream it names, or of its device's default stream. -/
def Ordered : Prop :=
  ∀ pre c post, w.calls = pre ++ c :: post →
    ∀ s, (c.stream? = some s ∨ w.ownedStream (.device c.device) = some s) → ¬ Retired pre s

/-- When a device's default stream is destroyed, every non-default stream of the device has been
destroyed before. -/
def DefaultLast : Prop :=
  ∀ pre d s post, w.calls = pre ++ .destroyStream d s :: post → w.ownedStream (.device d) = some s →
    ∀ p s', w.streams.get? p = some (.nonDefault d s') → Retired pre s'

structure Valid (held : List Ptr) : Prop where
  balanced : w.Balanced held
  fresh : ∀ o s, w.ownedStream o = some s → s.handle < w.nextHandle
  unique : ∀ o o' s, w.ownedStream o = some s → w.ownedStream o' = some s → o = o'
  defaults : ∀ p d s, w.streams.get? p = some (.default d s) → w.ownedStream (.device d) = some s
  retired : ∀ s, Retired w.calls s ↔ ∃ o, w.ownedStream o = some s ∧ w.ownerStrong o = 0
  ordered : w.Ordered
  defaultLast : w.DefaultLast

variable {w} {held : List Ptr}

/-! ## Field lemmas of the primitives -/

@[simp] theorem call_strong (c : Call) : (w.call c).strong = w.strong := rfl
@[simp] theorem call_cellRefs (c : Call) : (w.call c).cellRefs = w.cellRefs := rfl
@[simp] theorem call_ownedStream (c : Call) : (w.call c).ownedStream = w.ownedStream := rfl
@[simp] theorem call_ownerStrong (c : Call) : (w.call c).ownerStrong = w.ownerStrong := rfl

theorem strong_clone {q : Ptr} (hq : 0 < w.strong q) (x : Ptr) :
    (w.clone q).strong x = w.strong x + if x = q then 1 else 0 := by
  cases q <;> cases x <;>
    simp_all [clone, strong, ArcHeap.strong_clone]

theorem cellRefs_clone {q : Ptr} (hq : 0 < w.strong q) : (w.clone q).cellRefs = w.cellRefs := by
  cases q <;> simp_all [clone, strong, cellRefs, ArcHeap.liveRefs_clone]

@[simp] theorem ownedStream_clone (q : Ptr) : (w.clone q).ownedStream = w.ownedStream := by
  funext o
  cases q <;> cases o <;> simp [clone, ownedStream]

@[simp] theorem nextHandle_clone (q : Ptr) : (w.clone q).nextHandle = w.nextHandle := by
  cases q <;> rfl

@[simp] theorem calls_clone (q : Ptr) : (w.clone q).calls = w.calls := by
  cases q <;> rfl

@[simp] theorem streams_get?_clone (q : Ptr) (p : Nat) :
    (w.clone q).streams.get? p = w.streams.get? p := by
  cases q <;> simp [clone]

theorem ownerStrong_clone_eq_zero {q : Ptr} (hq : 0 < w.strong q) (o : Owner) :
    (w.clone q).ownerStrong o = 0 ↔ w.ownerStrong o = 0 := by
  cases q <;> cases o <;> simp_all [clone, ownerStrong, strong, ArcHeap.strong_clone_eq_zero]

/-! ## Consequences of the invariant -/

theorem Balanced.strong_pos (hb : w.Balanced held) {q : Ptr} (hq : q ∈ held) : 0 < w.strong q := by
  rw [hb q]
  exact List.count_pos_iff.mpr (List.mem_append_right _ hq)

theorem Valid.congr (hv : w.Valid held) {held' : List Ptr}
    (h : ∀ q, held.count q = held'.count q) : w.Valid held' :=
  { hv with balanced := fun q => by simp only [hv.balanced q, List.count_append, h] }

/-- A stream whose owner is alive has not been destroyed. -/
theorem Valid.not_retired (hv : w.Valid held) {o : Owner} {s : ApiStream}
    (ho : w.ownedStream o = some s) (hpos : 0 < w.ownerStrong o) : ¬ Retired w.calls s := by
  rw [hv.retired]
  rintro ⟨o', ho', hz⟩
  cases hv.unique o o' s ho ho'
  omega

/-- A stream handle no owner has received yet has not been destroyed. -/
theorem Valid.not_retired_of_fresh (hv : w.Valid held) {s : ApiStream}
    (hs : w.nextHandle ≤ s.handle) : ¬ Retired w.calls s := by
  rw [hv.retired]
  rintro ⟨o, ho, -⟩
  have := hv.fresh o s ho
  omega

/-- A live `StreamHandle` holds a reference to its device. -/
theorem count_cellRefs_pos {p : Nat} {sh : StreamHandle} (hp : 0 < w.streams.strong p)
    (hsh : w.streams.get? p = some sh) : 0 < w.cellRefs.count (.device sh.device) :=
  List.count_pos_iff.mpr
    (List.mem_append_left _ (ArcHeap.mem_liveRefs hp hsh (List.mem_singleton_self _)))

/-- A live `StreamHandle` keeps its device alive. -/
theorem Valid.device_pos (hv : w.Valid held) {p : Nat} {sh : StreamHandle}
    (hp : 0 < w.streams.strong p) (hsh : w.streams.get? p = some sh) :
    0 < w.devices.strong sh.device := by
  have := hv.balanced (.device sh.device)
  simp only [strong, List.count_append] at this
  have := count_cellRefs_pos hp hsh
  omega

/-- The stream a live `StreamHandle` names has a live owner. -/
theorem Valid.handle_owned (hv : w.Valid held) {p : Nat} {sh : StreamHandle}
    (hp : 0 < w.streams.strong p) (hsh : w.streams.get? p = some sh) :
    ∃ o, w.ownedStream o = some sh.handle ∧ 0 < w.ownerStrong o := by
  have hpos := hv.device_pos hp hsh
  cases sh with
  | default d s => exact ⟨.device d, hv.defaults p d s hsh, hpos⟩
  | nonDefault d h =>
      exact ⟨.stream p, by simp [ownedStream, hsh, StreamHandle.owned?, StreamHandle.handle], hp⟩

theorem Retired.of_prefix {pre post : List Call} {s : ApiStream} (h : Retired pre s) :
    Retired (pre ++ post) s :=
  retired_append_iff.mpr (.inl h)

/-! ## Transfer lemmas -/

theorem Ordered.call {c : Call} (ho : w.Ordered)
    (hc : ∀ s, (c.stream? = some s ∨ w.ownedStream (.device c.device) = some s) →
      ¬ Retired w.calls s) : (w.call c).Ordered := by
  intro pre c' post hsplit s hs
  rcases eq_append_cons_of_append_singleton hsplit with ⟨rfl, rfl⟩ | ⟨post', hsplit⟩
  · exact hc s hs
  · exact ho pre c' post' hsplit s hs

/-- A call that destroys no default stream keeps `DefaultLast`. -/
theorem DefaultLast.call {c : Call} (hl : w.DefaultLast)
    (hc : ∀ d s, c = .destroyStream d s → w.ownedStream (.device d) = some s →
      ∀ p s', w.streams.get? p = some (.nonDefault d s') → Retired w.calls s') :
    (w.call c).DefaultLast := by
  intro pre d s post hsplit
  rcases eq_append_cons_of_append_singleton hsplit with ⟨rfl, rfl⟩ | ⟨post', hsplit⟩
  · exact hc d s rfl
  · exact hl pre d s post' hsplit

/-- A world with the owners, stream handles, handle counter and calls of a valid world, whose
owners are dead exactly when they were, is valid for any references its counts balance. -/
theorem Valid.frame (hv : w.Valid held) {w' : World} {held' : List Ptr} (hb : w'.Balanced held')
    (hown : w'.ownedStream = w.ownedStream) (hstreams : ∀ p, w'.streams.get? p = w.streams.get? p)
    (hnext : w'.nextHandle = w.nextHandle) (hcalls : w'.calls = w.calls)
    (hzero : ∀ o s, w.ownedStream o = some s → (w'.ownerStrong o = 0 ↔ w.ownerStrong o = 0)) :
    w'.Valid held' where
  balanced := hb
  fresh := by rw [hown, hnext]; exact hv.fresh
  unique := by rw [hown]; exact hv.unique
  defaults p d s := by rw [hown, hstreams]; exact hv.defaults p d s
  retired s := by
    rw [hcalls, hown, hv.retired]
    exact exists_congr fun o => and_congr_right fun ho => (hzero o s ho).symm
  ordered := by unfold Ordered; rw [hcalls, hown]; exact hv.ordered
  defaultLast := by unfold DefaultLast; simp only [hcalls, hown, hstreams]; exact hv.defaultLast

/-- The owner `o₀` of `s` has just died in `w'`: calling `destroy_stream(s)` restores the
invariant. -/
theorem Valid.death (hv : w.Valid held) {w' : World} {held' : List Ptr} {o₀ : Owner} {d : Nat}
    {s : ApiStream} (hb : w'.Balanced held') (hown : w'.ownedStream = w.ownedStream)
    (hstreams : ∀ p, w'.streams.get? p = w.streams.get? p) (hnext : w'.nextHandle = w.nextHandle)
    (hcalls : w'.calls = w.calls) (ho₀ : w.ownedStream o₀ = some s) (hpos : 0 < w.ownerStrong o₀)
    (hzero : ∀ o s', w.ownedStream o = some s' →
      (w'.ownerStrong o = 0 ↔ w.ownerStrong o = 0 ∨ o = o₀))
    (hdev : 0 < w.devices.strong d)
    (hlast : w.ownedStream (.device d) = some s →
      ∀ p s', w.streams.get? p = some (.nonDefault d s') → Retired w.calls s') :
    (w'.call (.destroyStream d s)).Valid held' where
  balanced := hb
  fresh := by simp only [call_ownedStream, call_nextHandle, hown, hnext]; exact hv.fresh
  unique := by simp only [call_ownedStream, hown]; exact hv.unique
  defaults p d' s' := by
    simp only [call_ownedStream, call_streams, hown, hstreams]; exact hv.defaults p d' s'
  retired s' := by
    simp only [call_calls, call_ownedStream, call_ownerStrong, hcalls, hown, retired_append_iff,
      retired_singleton_iff, Call.destroyStream.injEq, hv.retired]
    constructor
    · rintro (⟨o, ho, hz⟩ | ⟨_, -, hs⟩)
      · exact ⟨o, ho, (hzero o s' ho).mpr (.inl hz)⟩
      · subst hs
        exact ⟨o₀, ho₀, (hzero o₀ s ho₀).mpr (.inr rfl)⟩
    · rintro ⟨o, ho, hz⟩
      rcases (hzero o s' ho).mp hz with hz | rfl
      · exact .inl ⟨o, ho, hz⟩
      · rw [ho₀] at ho
        exact .inr ⟨d, rfl, (Option.some.inj ho)⟩
  ordered := by
    refine Ordered.call ?_ ?_
    · unfold Ordered; rw [hcalls, hown]; exact hv.ordered
    · rintro s' (h | h)
      · simp only [Call.stream?, Option.some.injEq] at h
        subst h
        rw [hcalls]; exact hv.not_retired ho₀ hpos
      · rw [hcalls]
        simp only [Call.device, hown] at h
        exact hv.not_retired (o := .device d) h hdev
  defaultLast := by
    refine DefaultLast.call ?_ ?_
    · unfold DefaultLast; simp only [hcalls, hown, hstreams]; exact hv.defaultLast
    · rintro _ _ ⟨⟩
      simp only [hcalls, hown, hstreams]
      exact hlast

/-! ## The primitives keep the invariant -/

/-- A call other than `destroy_stream`, on the backend of a live device, naming only streams
whose owner is alive. -/
theorem Valid.call (hv : w.Valid held) {c : Call} (hc : ∀ d s, c ≠ .destroyStream d s)
    (hdev : 0 < w.devices.strong c.device)
    (hs : ∀ s, c.stream? = some s → ∃ o, w.ownedStream o = some s ∧ 0 < w.ownerStrong o) :
    (w.call c).Valid held where
  balanced := hv.balanced
  fresh := hv.fresh
  unique := hv.unique
  defaults := hv.defaults
  retired s := by
    rw [call_calls, call_ownedStream, call_ownerStrong, retired_append_iff,
      retired_singleton_iff, ← hv.retired]
    simp [hc]
  ordered := hv.ordered.call fun s h => h.elim
    (fun h => let ⟨_, ho, hpos⟩ := hs s h; hv.not_retired ho hpos)
    (fun h => hv.not_retired (o := .device c.device) h hdev)
  defaultLast := hv.defaultLast.call fun d s h => absurd h (hc d s)

theorem Valid.clone (hv : w.Valid held) {q : Ptr} (hpos : 0 < w.strong q) :
    (w.clone q).Valid (q :: held) := by
  refine hv.frame (fun x => ?_) (ownedStream_clone q) (streams_get?_clone q) (nextHandle_clone q)
    (calls_clone q) (fun o _ _ => ownerStrong_clone_eq_zero hpos o)
  rw [strong_clone hpos, cellRefs_clone hpos, hv.balanced x]
  simp only [List.count_append, List.count_cons, beq_iff_eq]
  by_cases h : x = q
  · subst h; simp; omega
  · simp [h, Ne.symm h]

@[simp] theorem create_ok (c : Call) :
    w.create c (.ok ()) = (.ok w.nextHandle, { w.call c with nextHandle := w.nextHandle + 1 }) := rfl

@[simp] theorem create_error (c : Call) (e : BackendError) :
    w.create c (.error e) = (.error e, w.call c) := rfl

/-- A backend call that creates an object. -/
theorem Valid.create (hv : w.Valid held) {c : Call} (hc : c.stream? = none)
    (hdev : 0 < w.devices.strong c.device) (answer : Except BackendError Unit) :
    (w.create c answer).2.Valid held := by
  have hcall := hv.call (c := c) (fun d s h => by simp [h, Call.stream?] at hc) hdev
    (by simp [hc])
  rcases answer with e | ⟨⟩
  · exact hcall
  · exact { hcall with fresh := fun o s ho => Nat.lt_succ_of_lt (hcall.fresh o s ho) }

/-! ## Allocation -/

theorem strong_allocStream (sh : StreamHandle) (x : Ptr) :
    (w.allocStream sh).2.strong x = if x = .stream w.streams.cells.length then 1 else w.strong x := by
  cases x <;> simp [allocStream, strong]

theorem count_cellRefs_allocStream (sh : StreamHandle) (x : Ptr) :
    (w.allocStream sh).2.cellRefs.count x = w.cellRefs.count x + sh.refs.count x := by
  simp only [allocStream, cellRefs, ArcHeap.liveRefs_alloc, List.count_append]
  omega

theorem ownedStream_allocStream (sh : StreamHandle) (o : Owner) :
    (w.allocStream sh).2.ownedStream o =
      if o = .stream w.streams.cells.length then sh.owned? else w.ownedStream o := by
  cases o <;> simp [allocStream, ownedStream, ArcHeap.get?_alloc]
  split <;> simp_all

theorem ownerStrong_allocStream (sh : StreamHandle) (o : Owner) :
    (w.allocStream sh).2.ownerStrong o =
      if o = .stream w.streams.cells.length then 1 else w.ownerStrong o := by
  cases o <;> simp [allocStream, ownerStrong]

/-- The count of a fresh pointer was zero. -/
theorem Balanced.count_fresh (hb : w.Balanced held) :
    (w.cellRefs ++ held).count (.stream w.streams.cells.length) = 0 ∧
      (w.cellRefs ++ held).count (.resource w.resources.cells.length) = 0 := by
  rw [← hb, ← hb]
  exact ⟨ArcHeap.strong_length, ArcHeap.strong_length⟩

/-- `Arc::new` of a `StreamHandle`: the handle takes over the device reference, and a
non-default one owns a handle that no owner has. -/
theorem Valid.allocStream (sh : StreamHandle) (hv : w.Valid (.device sh.device :: held))
    (hdefault : ∀ d s, sh = .default d s → w.ownedStream (.device d) = some s)
    (hfresh : ∀ h, sh.owned? = some h → h.handle < w.nextHandle ∧ ∀ o, w.ownedStream o ≠ some h) :
    (w.allocStream sh).2.Valid (.stream w.streams.cells.length :: held) where
  balanced x := by
    have hx := hv.balanced x
    have hlen := hv.balanced.count_fresh.1
    rw [strong_allocStream, List.count_append, count_cellRefs_allocStream]
    simp only [StreamHandle.refs, List.count_append, List.count_cons, List.count_nil,
      beq_iff_eq] at hx hlen ⊢
    split
    · subst x; simp at hlen ⊢; omega
    · have hne : Ptr.stream w.streams.cells.length ≠ x := Ne.symm ‹_›
      simp only [hne, if_false]
      omega
  fresh o s ho := by
    rw [ownedStream_allocStream] at ho
    split at ho
    · exact (hfresh s ho).1
    · exact hv.fresh o s ho
  unique o o' s ho ho' := by
    rw [ownedStream_allocStream] at ho ho'
    split at ho <;> split at ho'
    · simp_all
    · exact absurd ho' ((hfresh s ho).2 o')
    · exact absurd ho ((hfresh s ho').2 o)
    · exact hv.unique o o' s ho ho'
  defaults p d s h := by
    rw [ownedStream_allocStream, if_neg Owner.noConfusion]
    simp only [World.allocStream, ArcHeap.get?_alloc] at h
    split at h
    · exact hdefault d s (Option.some.inj h)
    · exact hv.defaults p d s h
  retired s := by
    rw [show (w.allocStream sh).2.calls = w.calls from rfl, hv.retired]
    refine exists_congr fun o => ?_
    rw [ownedStream_allocStream, ownerStrong_allocStream]
    split
    · subst o; simp [ownedStream, ArcHeap.get?_length]
    · rfl
  ordered := by
    intro pre c post hsplit s hs
    rw [ownedStream_allocStream, if_neg Owner.noConfusion] at hs
    exact hv.ordered pre c post hsplit s hs
  defaultLast := by
    intro pre d s post hsplit hs p s' hp
    rw [ownedStream_allocStream, if_neg Owner.noConfusion] at hs
    simp only [World.allocStream, ArcHeap.get?_alloc] at hp
    split at hp
    · cases Option.some.inj hp
      have hpos : 0 < w.ownerStrong (.device d) := hv.balanced.strong_pos (List.mem_cons_self _ _)
      exact absurd ⟨d, hsplit ▸ List.mem_append_right _ (List.mem_cons_self _ _)⟩
        (hv.not_retired hs hpos)
    · exact hv.defaultLast pre d s post hsplit hs p s' hp

/-- `Arc::new` of a resource handle: the handle takes over the device reference. -/
theorem Valid.allocResource {r : ResourceHandle} (hv : w.Valid (.device r.device.inner :: held)) :
    (w.allocResource r).2.Valid (.resource w.resources.cells.length :: held) := by
  refine hv.frame (fun x => ?_) rfl (fun _ => rfl) rfl rfl (fun _ _ _ => Iff.rfl)
  have hx := hv.balanced x
  have hlen := hv.balanced.count_fresh.2
  simp only [World.allocResource, cellRefs, ArcHeap.liveRefs_alloc, ResourceHandle.refs,
    List.count_append, List.count_cons, List.count_nil, beq_iff_eq] at hx hlen ⊢
  cases x with
  | resource q =>
      simp only [strong, ArcHeap.strong_alloc, Ptr.resource.injEq] at hx hlen ⊢
      split
      · subst q; simp at hlen ⊢; omega
      · simp_all [Ne.symm ‹_›]
  | device p => simp only [strong, reduceCtorEq, if_false] at hx ⊢; omega
  | stream p => simp only [strong, reduceCtorEq, if_false] at hx ⊢; omega

/-! ## Releasing references -/

theorem releaseDevice_of_ne {p : Nat} (h1 : w.devices.strong p ≠ 1) :
    w.releaseDevice p = { w with devices := (w.devices.release p).1 } := by
  simp [releaseDevice, ArcHeap.release_snd, h1]

theorem releaseDevice_of_eq {p : Nat} {dh : DeviceHandle} (h1 : w.devices.strong p = 1)
    (hd : w.devices.get? p = some dh) : w.releaseDevice p =
      { w with devices := (w.devices.release p).1 }.call (.destroyStream p dh.defaultStream) := by
  simp [releaseDevice, ArcHeap.release_snd, h1, hd]

theorem releaseStream_of_ne {p : Nat} (h1 : w.streams.strong p ≠ 1) :
    w.releaseStream p = { w with streams := (w.streams.release p).1 } := by
  simp [releaseStream, ArcHeap.release_snd, h1]

theorem releaseStream_of_eq {p : Nat} {sh : StreamHandle} (h1 : w.streams.strong p = 1)
    (hs : w.streams.get? p = some sh) :
    w.releaseStream p = sh.drop { w with streams := (w.streams.release p).1 } := by
  simp [releaseStream, ArcHeap.release_snd, h1, hs]

theorem releaseResource_of_ne {p : Nat} (h1 : w.resources.strong p ≠ 1) :
    w.releaseResource p = { w with resources := (w.resources.release p).1 } := by
  simp [releaseResource, ArcHeap.release_snd, h1]

theorem releaseResource_of_eq {p : Nat} {r : ResourceHandle} (h1 : w.resources.strong p = 1)
    (hr : w.resources.get? p = some r) :
    w.releaseResource p = r.drop { w with resources := (w.resources.release p).1 } := by
  simp [releaseResource, ArcHeap.release_snd, h1, hr]

theorem Valid.releaseDevice {p : Nat} (hv : w.Valid (.device p :: held)) :
    (w.releaseDevice p).Valid held := by
  have hpos : 0 < w.devices.strong p := hv.balanced.strong_pos (List.mem_cons_self _ _)
  set w₁ : World := { w with devices := (w.devices.release p).1 } with hw₁
  have hstrong (x : Ptr) : w₁.strong x = w.strong x - if x = .device p then 1 else 0 := by
    cases x <;> simp [hw₁, strong, ArcHeap.strong_release]
  have hb : w₁.Balanced held := by
    intro x
    rw [hstrong, hv.balanced x]
    simp only [cellRefs, hw₁, List.count_append, List.count_cons, beq_iff_eq]
    by_cases hxp : x = .device p
    · subst hxp; simp
    · simp [hxp, Ne.symm hxp]
  have hown : w₁.ownedStream = w.ownedStream := by
    funext o; cases o <;> simp [hw₁, ownedStream]
  have hzero (o : Owner) :
      w₁.ownerStrong o = 0 ↔ w.ownerStrong o = 0 ∨ o = .device p ∧ w.devices.strong p = 1 := by
    cases o <;> simp [hw₁, ownerStrong, ArcHeap.strong_release_eq_zero hpos]
  by_cases h1 : w.devices.strong p = 1
  · obtain ⟨dh, hdh⟩ := Option.isSome_iff_exists.mp (ArcHeap.get?_isSome_of_strong_pos hpos)
    rw [World.releaseDevice_of_eq h1 hdh]
    have hcell : w.cellRefs.count (.device p) = 0 := by
      have := hv.balanced (.device p)
      simp only [strong, List.count_append, List.count_cons, beq_self_eq_true, if_true] at this
      omega
    refine hv.death hb hown (fun _ => rfl) rfl rfl
      (show w.ownedStream (.device p) = some dh.defaultStream by simp [ownedStream, hdh]) hpos (fun o _ _ => by simp [hzero, h1]) hpos
      fun _ q s' hq => (hv.retired s').mpr ⟨.stream q, by simp [ownedStream, hq, StreamHandle.owned?], ?_⟩
    by_contra hne
    have := count_cellRefs_pos (Nat.pos_of_ne_zero hne) hq
    simp only [StreamHandle.device] at this
    omega
  · rw [World.releaseDevice_of_ne h1]
    exact hv.frame hb hown (fun _ => rfl) rfl rfl (fun o _ _ => by simp [hzero, h1])

theorem Valid.releaseStream {p : Nat} (hv : w.Valid (.stream p :: held)) :
    (w.releaseStream p).Valid held := by
  have hpos : 0 < w.streams.strong p := hv.balanced.strong_pos (List.mem_cons_self _ _)
  set w₁ : World := { w with streams := (w.streams.release p).1 } with hw₁
  have hown : w₁.ownedStream = w.ownedStream := by
    funext o; cases o <;> simp [hw₁, ownedStream]
  have hget (q : Nat) : w₁.streams.get? q = w.streams.get? q := by simp [hw₁]
  have hzero (o : Owner) :
      w₁.ownerStrong o = 0 ↔ w.ownerStrong o = 0 ∨ o = .stream p ∧ w.streams.strong p = 1 := by
    cases o <;> simp [hw₁, ownerStrong, ArcHeap.strong_release_eq_zero hpos]
  have hstrong (x : Ptr) : w₁.strong x = w.strong x - if x = .stream p then 1 else 0 := by
    cases x <;> simp [hw₁, strong, ArcHeap.strong_release]
  by_cases h1 : w.streams.strong p = 1
  · obtain ⟨sh, hsh⟩ := Option.isSome_iff_exists.mp (ArcHeap.get?_isSome_of_strong_pos hpos)
    have hb : w₁.Balanced (.device sh.device :: held) := by
      intro x
      have hx := hv.balanced x
      have hc := ArcHeap.count_liveRefs_release_of_eq h1 hsh StreamHandle.refs x
      rw [hstrong, hx]
      simp only [cellRefs, hw₁, List.count_append, List.count_cons, StreamHandle.refs,
        List.count_nil, beq_iff_eq] at hc ⊢
      by_cases hxp : x = .stream p
      · subst hxp; simp at hc ⊢; omega
      · simp only [hxp, Ne.symm hxp, if_false]; omega
    have hdev : 0 < w.devices.strong sh.device := hb.strong_pos (List.mem_cons_self _ _)
    rw [World.releaseStream_of_eq h1 hsh]
    cases sh with
    | default d s =>
        refine (hv.frame hb hown hget rfl rfl fun o s' ho => ?_).releaseDevice
        rw [hzero, or_iff_left]
        rintro ⟨rfl, -⟩
        simp [ownedStream, hsh, StreamHandle.owned?] at ho
    | nonDefault d h =>
        have hown_p : w.ownedStream (.stream p) = some h := by
          simp [ownedStream, hsh, StreamHandle.owned?]
        exact (hv.death hb hown hget rfl rfl hown_p hpos
          (fun o _ _ => by simp [hzero, h1]) hdev
          fun hd => absurd (hv.unique _ _ _ hd hown_p) Owner.noConfusion).releaseDevice
  · have hb : w₁.Balanced held := by
      intro x
      have hx := hv.balanced x
      rw [hstrong, hx]
      simp only [cellRefs, hw₁, ArcHeap.liveRefs_release_of_ne hpos h1, List.count_append,
        List.count_cons, beq_iff_eq]
      by_cases hxp : x = .stream p
      · subst hxp; simp
      · simp [hxp, Ne.symm hxp]
    rw [World.releaseStream_of_ne h1]
    exact hv.frame hb hown hget rfl rfl (fun o _ _ => by simp [hzero, h1])

theorem Valid.releaseResource {p : Nat} (hv : w.Valid (.resource p :: held)) :
    (w.releaseResource p).Valid held := by
  have hpos : 0 < w.resources.strong p := hv.balanced.strong_pos (List.mem_cons_self _ _)
  set w₁ : World := { w with resources := (w.resources.release p).1 } with hw₁
  have hstrong (x : Ptr) : w₁.strong x = w.strong x - if x = .resource p then 1 else 0 := by
    cases x <;> simp [hw₁, strong, ArcHeap.strong_release]
  by_cases h1 : w.resources.strong p = 1
  · obtain ⟨r, hr⟩ := Option.isSome_iff_exists.mp (ArcHeap.get?_isSome_of_strong_pos hpos)
    have hb : w₁.Balanced (.device r.device.inner :: held) := by
      intro x
      have hx := hv.balanced x
      have hc := ArcHeap.count_liveRefs_release_of_eq h1 hr ResourceHandle.refs x
      rw [hstrong, hx]
      simp only [cellRefs, hw₁, List.count_append, List.count_cons, ResourceHandle.refs,
        List.count_nil, beq_iff_eq] at hc ⊢
      by_cases hxp : x = .resource p
      · subst hxp; simp at hc ⊢; omega
      · simp only [hxp, Ne.symm hxp, if_false]; omega
    have hv₁ : w₁.Valid (.device r.device.inner :: held) :=
      hv.frame hb rfl (fun _ => rfl) rfl rfl fun _ _ _ => Iff.rfl
    have hdev : 0 < w₁.devices.strong r.device.inner := hb.strong_pos (List.mem_cons_self _ _)
    rw [World.releaseResource_of_eq h1 hr]
    exact (hv₁.call (r.free_ne_destroyStream) (by simpa using hdev) (by simp)).releaseDevice
  · have hb : w₁.Balanced held := by
      intro x
      have hx := hv.balanced x
      rw [hstrong, hx]
      simp only [cellRefs, hw₁, ArcHeap.liveRefs_release_of_ne hpos h1, List.count_append,
        List.count_cons, beq_iff_eq]
      by_cases hxp : x = .resource p
      · subst hxp; simp
      · simp [hxp, Ne.symm hxp]
    rw [World.releaseResource_of_ne h1]
    exact hv.frame hb rfl (fun _ => rfl) rfl rfl fun _ _ _ => Iff.rfl

theorem Valid.release {q : Ptr} (hv : w.Valid (q :: held)) : (w.release q).Valid held := by
  cases q with
  | device p => exact hv.releaseDevice
  | stream p => exact hv.releaseStream
  | resource p => exact hv.releaseResource

/-- Drop glue keeps the invariant: the references it releases leave the held ones. -/
theorem Valid.releaseAll {ps : List Ptr} (hv : w.Valid (ps ++ held)) :
    (w.releaseAll ps).Valid held := by
  induction ps generalizing w with
  | nil => exact hv
  | cons q ps ih => exact ih hv.release

end World

end LuisaCompute
