import Mathlib.Data.List.Nodup
import LuisaCompute.Runtime.Calls

/-! # Dropping everything

A caller that drops every value it holds, in whatever order, leaves nothing alive: the strong
counts are exact and no value is reached from the heap alone, so every `Arc` goes to zero. On the
way the backends receive, once each, the call that ends every allocation alive before:
`destroy_stream` of its default stream for a `DeviceHandle` (`Drop for DeviceHandle`),
`destroy_stream` of its stream for a `StreamHandle::NonDefault` (`Drop for StreamHandle`), and the
free of its resource for a resource handle; and nothing else. No backend object is leaked and
none is released twice, whichever order the values are dropped in.
-/

namespace LuisaCompute

theorem Call.isRelease_iff {c : Call} :
    c.isRelease ↔ (∃ d x, c = .destroyStream d x) ∨ c.isFree := by
  cases c <;> simp [Call.isRelease, Call.isFree]

namespace World

variable {w w' : World} {held held' : List Ptr}

/-! ## Drops keep every allocation -/

theorem SameCells.ownedStream (h : SameCells w w') (o : Owner) :
    w'.ownedStream o = w.ownedStream o := by
  cases o <;> simp [World.ownedStream, h.devices, h.streams]

theorem sameCells_releaseAll (w : World) (ps : List Ptr) : SameCells w (w.releaseAll ps) :=
  (w.releaseAll_spec ps).choose_spec.1.toSameCells

/-! ## Finalizers -/

/-- The call that ends a live allocation when its last reference goes: `destroy_stream` of the
default stream for a `DeviceHandle`, `destroy_stream` of the stream for a
`StreamHandle::NonDefault`, the free of the resource for a resource handle. A
`StreamHandle::Default` has none. -/
inductive Finalizer (w : World) : Call → Prop
  | device {p : Nat} {dh : DeviceHandle} : 0 < w.devices.strong p → w.devices.get? p = some dh →
      Finalizer w (.destroyStream p dh.defaultStream)
  | stream {p d : Nat} {x : ApiStream} : 0 < w.streams.strong p →
      w.streams.get? p = some (.nonDefault d x) → Finalizer w (.destroyStream d x)
  | resource {p : Nat} {r : ResourceHandle} : 0 < w.resources.strong p →
      w.resources.get? p = some r → Finalizer w r.free

/-- No call that releases backend state is made twice. -/
theorem Valid.count_release_le_one (hv : w.Valid held) (hf : w.FreesValid) {c : Call}
    (hc : c.isRelease) : w.calls.count c ≤ 1 := by
  rcases Call.isRelease_iff.mp hc with ⟨d, x, rfl⟩ | hfree
  · exact (hv.streamLog x).count_destroyStream_le_one d
  · exact hf.once c hfree

/-- The owner of a stream of the backend of `d`: `d` itself, or a `StreamHandle::NonDefault`
of `d`. -/
theorem Valid.owner_of_streamOf (hv : w.Valid held) {d : Nat} {x : ApiStream}
    (hx : w.StreamOf d x) {o : Owner} (ho : w.ownedStream o = some x) :
    o = .device d ∨ ∃ p, o = .stream p ∧ w.streams.get? p = some (.nonDefault d x) := by
  rcases hx with hx | ⟨p, hp⟩
  · exact .inl (hv.unique _ _ _ ho hx)
  · exact .inr ⟨p, hv.unique _ _ _ ho (by simp [ownedStream, hp, StreamHandle.owned?]), hp⟩

section Finalizes

variable (hv : w.Valid held) (hf : w.FreesValid) (hv' : w'.Valid held') (hf' : w'.FreesValid)
  (hr' : w'.CallsOwnStreams) (hext : w.Extends w') (hsame : SameCells w w')
  {new : List Call} (hnew : w'.calls = w.calls ++ new)
include hv hf hv' hf' hr' hext hsame hnew

/-- A release call appended to a world with the same allocations finalizes one that was alive. -/
theorem Valid.finalizer_of_mem_new {c : Call} (hrel : c.isRelease) (hc : c ∈ new) :
    w.Finalizer c := by
  have hc' : c ∈ w'.calls := hnew ▸ List.mem_append_right _ hc
  rcases Call.isRelease_iff.mp hrel with ⟨d, x, rfl⟩ | hfree
  · obtain ⟨o, ho', -⟩ := (hv'.retired x).mp ⟨d, hc'⟩
    have ho : w.ownedStream o = some x := (hsame.ownedStream o).symm.trans ho'
    have hpos := ((hv.retired_new_iff hv' hext hnew ho).mp ⟨d, hc⟩).1
    rcases hv'.owner_of_streamOf (hr' (.destroyStream d x) hc' x rfl) ho' with rfl | ⟨p, rfl, hp⟩
    · obtain ⟨dh, hdh, rfl⟩ := Option.map_eq_some'.mp ho
      exact .device hpos hdh
    · exact .stream hpos (hsame.streams ▸ hp)
  · obtain ⟨p, r, hr, rfl⟩ := hf'.known c hc' hfree
    have hr₀ : w.resources.get? p = some r := hsame.resources ▸ hr
    have hcount := hv'.count_release_le_one hf' hrel
    rw [hnew, List.count_append] at hcount
    have hnot : r.free ∉ w.calls := fun hm => by
      have := List.count_pos_iff.mpr hm
      have := List.count_pos_iff.mpr hc
      omega
    exact .resource (Nat.pos_of_ne_zero fun hz => hnot ((hf.freed p r hr₀).mpr hz)) hr₀

/-- The finalizer of an allocation that is dead in `w'` has been appended. -/
theorem Valid.mem_new_of_finalizer (hdead : ∀ q, w'.strong q = 0) {c : Call}
    (hc : w.Finalizer c) : c ∈ new := by
  cases hc with
  | @device p dh hp hdh =>
      have ho : w.ownedStream (.device p) = some dh.defaultStream := by simp [ownedStream, hdh]
      obtain ⟨d, hd⟩ := (hv.retired_new_iff hv' hext hnew ho).mpr ⟨hp, hdead (.device p)⟩
      have hx := hr' (.destroyStream d _) (hnew ▸ List.mem_append_right _ hd) _ rfl
      rcases hv'.owner_of_streamOf hx ((hsame.ownedStream _).trans ho) with h | ⟨_, h, -⟩ <;>
        cases h
      exact hd
  | @stream p d x hp hsh =>
      have ho : w.ownedStream (.stream p) = some x := by
        simp [ownedStream, hsh, StreamHandle.owned?]
      obtain ⟨d', hd⟩ := (hv.retired_new_iff hv' hext hnew ho).mpr ⟨hp, hdead (.stream p)⟩
      have hx := hr' (.destroyStream d' x) (hnew ▸ List.mem_append_right _ hd) _ rfl
      rcases hv'.owner_of_streamOf hx ((hsame.ownedStream _).trans ho) with h | ⟨_, h, hp'⟩ <;>
        cases h
      rw [hsame.streams, hsh] at hp'
      cases hp'
      exact hd
  | @resource p r hp hr =>
      have hfree := (hf'.freed p r (hsame.resources ▸ hr)).mpr (hdead (.resource p))
      rw [hnew] at hfree
      exact (List.mem_append.mp hfree).resolve_left fun hm => by
        have := (hf.freed p r hr).mp hm
        omega

end Finalizes

/-- Between two valid worlds with the same allocations, where the second has only made releases
and keeps nothing alive, the calls appended are the finalizers of the first, each once. -/
theorem Valid.finalizes (hv : w.Valid held) (hf : w.FreesValid) (hv' : w'.Valid held')
    (hf' : w'.FreesValid) (hr' : w'.CallsOwnStreams) (hext : w.Extends w')
    (hsame : SameCells w w') (hrel : ReleasesOnly w w') (hdead : ∀ q, w'.strong q = 0) :
    ∃ new, w'.calls = w.calls ++ new ∧ new.Nodup ∧ ∀ c, c ∈ new ↔ w.Finalizer c := by
  obtain ⟨new, hnew, hrel⟩ := hrel
  refine ⟨new, hnew, List.nodup_iff_count_le_one.mpr fun c => ?_, fun c =>
    ⟨fun hc => hv.finalizer_of_mem_new hf hv' hf' hr' hext hsame hnew (hrel c hc) hc,
      hv.mem_new_of_finalizer hf hv' hf' hr' hext hsame hnew hdead⟩⟩
  by_cases hc : c ∈ new
  · have hcount := hv'.count_release_le_one hf' (hrel c hc)
    rw [hnew, List.count_append] at hcount
    omega
  · simp [List.count_eq_zero_of_not_mem hc]

/-- Nothing is reached from no reference: the heap alone keeps nothing alive. -/
theorem not_reaches_nil {q : Ptr} (h : w.Reaches [] q) : False := by
  induction h with
  | held hq => cases hq
  | field _ _ ih => exact ih

/-- With no reference held outside the heap, nothing is alive. -/
theorem Valid.strong_eq_zero (hv : w.Valid []) (q : Ptr) : w.strong q = 0 :=
  Nat.eq_zero_of_not_pos fun hq => not_reaches_nil ((hv.strong_pos_iff_reaches q).mp hq)

end World

/-! ## Dropping every variable -/

namespace State

variable {s : State}

theorem step_drop {i : Nat} {v : Value} (h : s.get? i = some v) :
    s.step (.drop i) = some ⟨v.drop s.world, s.values.set i none⟩ := by
  simp [step, h]

theorem get?_set_none (w : World) (i j : Nat) :
    (⟨w, s.values.set i none⟩ : State).get? j = if j = i then none else s.get? j := by
  simp only [get?, List.getElem?_set]
  by_cases h : i = j
  · subst h; simp
  · simp [h, Ne.symm h]

theorem held_eq_nil (h : ∀ i, s.get? i = none) : s.held = [] := by
  refine List.flatMap_eq_nil_iff.mpr fun v hv => ?_
  obtain ⟨i, hi⟩ := List.mem_iff_getElem?.mp hv
  cases v with
  | none => rfl
  | some v => simpa [get?, hi] using h i

/-- Dropping distinct variables that hold values, one after the other: every drop applies, the
world only releases references, and the variables dropped end up empty. -/
theorem run_drops {order : List Nat} (hnd : order.Nodup) :
    ∀ {s : State}, (∀ i ∈ order, s.get? i ≠ none) →
      ∃ s', s.run (order.map .drop) = some s' ∧ (∃ ps, s'.world = s.world.releaseAll ps) ∧
        ∀ j, s'.get? j = if j ∈ order then none else s.get? j := by
  induction order with
  | nil => exact fun {s} _ => ⟨s, rfl, ⟨[], rfl⟩, fun _ => rfl⟩
  | cons i order ih =>
      intro s hheld
      obtain ⟨hi, hnd⟩ := List.nodup_cons.mp hnd
      obtain ⟨v, hv⟩ := Option.ne_none_iff_exists'.mp (hheld i (List.mem_cons_self _ _))
      have hget := get?_set_none (s := s) (v.drop s.world) i
      obtain ⟨s', hrun, ⟨ps, hw⟩, hget'⟩ := ih hnd (s := ⟨v.drop s.world, s.values.set i none⟩)
        fun j hj => by
          rw [hget, if_neg fun h : j = i => hi (h ▸ hj)]
          exact hheld j (List.mem_cons_of_mem _ hj)
      refine ⟨s', by simp [run, step_drop hv, hrun], ⟨v.refs ++ ps, ?_⟩, fun j => ?_⟩
      · rw [hw, World.releaseAll_append]
        rfl
      · rw [hget', hget]
        by_cases hj : j = i <;> simp [hj]

end State

/-- Dropping every variable that holds a value, in any order, runs to a state where nothing is
alive, and the calls it makes are exactly the finalizers of the allocations alive before, each
made once. -/
theorem drop_all_finalizes {s : State} (hs : Reachable s) {order : List Nat} (hnd : order.Nodup)
    (hcover : ∀ i, i ∈ order ↔ s.get? i ≠ none) :
    ∃ s', s.run (order.map .drop) = some s' ∧ (∀ i, s'.get? i = none) ∧
      (∀ q, s'.world.strong q = 0) ∧
      ∃ new, s'.world.calls = s.world.calls ++ new ∧ new.Nodup ∧
        ∀ c, c ∈ new ↔ s.world.Finalizer c := by
  obtain ⟨s', hrun, ⟨ps, hw⟩, hget⟩ := State.run_drops hnd fun i => (hcover i).mp
  have hs' := hs.run hrun
  have hempty : ∀ i, s'.get? i = none := fun i => by
    rw [hget, ite_eq_left_iff]
    exact fun hi => not_not.mp (mt (hcover i).mpr hi)
  have hv' : s'.world.Valid s'.held := hs'.valid
  rw [State.held_eq_nil hempty] at hv'
  have hdead := hv'.strong_eq_zero
  refine ⟨s', hrun, hempty, hdead, ?_⟩
  have hv : s.world.Valid s.held := hs.valid
  rw [hw] at hv' hdead ⊢
  exact hv.finalizes hs.freesValid hv' (hw ▸ hs'.freesValid) (hw ▸ hs'.callsOwnStreams)
    (.releaseAll _ _) (World.sameCells_releaseAll _ _) (World.releasesOnly_releaseAll _ _) hdead

/-- A device and a buffer created through it, dropped device first: the buffer's handle keeps
the device alive, so the buffer is freed and then the default stream destroyed. -/
theorem drop_all_finalizes_device_first :
    Reachable ⟨⟨⟨[⟨⟨⟨0⟩⟩, 3⟩]⟩, ⟨[]⟩, ⟨[⟨⟨.buffer, ⟨0⟩, 1⟩, 1⟩]⟩, 2, [.createBuffer 0 64]⟩,
        [some (.device ⟨0⟩), some (.buffer ⟨⟨0⟩, 0, 16, 4⟩)]⟩ ∧
      ∃ s', State.run ⟨⟨⟨[⟨⟨⟨0⟩⟩, 3⟩]⟩, ⟨[]⟩, ⟨[⟨⟨.buffer, ⟨0⟩, 1⟩, 1⟩]⟩, 2, [.createBuffer 0 64]⟩,
          [some (.device ⟨0⟩), some (.buffer ⟨⟨0⟩, 0, 16, 4⟩)]⟩ ([0, 1].map Action.drop) = some s' ∧
        (∀ i, s'.get? i = none) ∧ (∀ q, s'.world.strong q = 0) ∧
        ∃ new, s'.world.calls = [.createBuffer 0 64] ++ new ∧ new.Nodup ∧
          ∀ c, c ∈ new ↔
            World.Finalizer ⟨⟨[⟨⟨⟨0⟩⟩, 3⟩]⟩, ⟨[]⟩, ⟨[⟨⟨.buffer, ⟨0⟩, 1⟩, 1⟩]⟩, 2, [.createBuffer 0 64]⟩ c :=
  have hs := Reachable.init.run
    (show State.init.run [.newDevice, .createBuffer 0 4 16 (.ok ())] =
      some ⟨⟨⟨[⟨⟨⟨0⟩⟩, 3⟩]⟩, ⟨[]⟩, ⟨[⟨⟨.buffer, ⟨0⟩, 1⟩, 1⟩]⟩, 2, [.createBuffer 0 64]⟩,
        [some (.device ⟨0⟩), some (.buffer ⟨⟨0⟩, 0, 16, 4⟩)]⟩ from rfl)
  ⟨hs, drop_all_finalizes hs (by decide) fun i => by rcases i with _ | _ | i <;> simp [State.get?]⟩

end LuisaCompute
