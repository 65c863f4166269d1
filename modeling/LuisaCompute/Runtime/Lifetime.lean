import LuisaCompute.Runtime.Reachable

/-! # Lifetimes of streams, devices and resources

What the invariant says about runs. The calls naming one backend stream are dispatches and
synchronizations followed by at most one `destroy_stream`. A step destroys a stream exactly when
the owner of the stream loses its last reference in that step: the last `Stream` or
`CommandBuffer` for a non-default stream, the last reference to the `DeviceHandle` for a default
one. Once a `DeviceHandle` has been dropped, nothing that refers to its device is left, and every
call its backend received (stream destruction and resource frees included) came before the
destruction of its default stream. Throughout, a value is alive exactly when the caller's
variables reach it.
-/

namespace LuisaCompute

theorem Call.stream?_eq_some {c : Call} {s : ApiStream} :
    c.stream? = some s ↔
      (∃ d, c = .destroyStream d s) ∨ (∃ d cs, c = .dispatch d s cs) ∨
        ∃ d, c = .synchronizeStream d s := by
  cases c <;> simp [Call.stream?, eq_comm]

/-! ## The calls naming one stream -/

/-- The calls naming `s`: dispatches and synchronizations, then at most one `destroy_stream`. -/
def StreamLog (calls : List Call) (s : ApiStream) : Prop :=
  ∃ live final, calls.filter (fun c => c.stream? == some s) = live ++ final ∧
    (∀ c ∈ live, (∃ d cs, c = .dispatch d s cs) ∨ ∃ d, c = .synchronizeStream d s) ∧
    (final = [] ∨ ∃ d, final = [.destroyStream d s])

theorem StreamLog.append_singleton {calls : List Call} {s : ApiStream} {c : Call}
    (h : StreamLog calls s) (hc : c.stream? = some s → ¬ Retired calls s) :
    StreamLog (calls ++ [c]) s := by
  obtain ⟨live, final, hf, hlive, hfinal⟩ := h
  by_cases hcs : c.stream? = some s
  · have hnil : final = [] := by
      rcases hfinal with rfl | ⟨d, rfl⟩
      · rfl
      · refine absurd ⟨d, List.mem_of_mem_filter (p := fun c => c.stream? == some s) ?_⟩ (hc hcs)
        rw [hf]
        exact List.mem_append_right _ (List.mem_singleton_self _)
    subst hnil
    have hf' : (calls ++ [c]).filter (fun c => c.stream? == some s) = live ++ [c] := by
      simp [List.filter_append, hf, hcs]
    rcases Call.stream?_eq_some.mp hcs with ⟨d, rfl⟩ | hds
    · exact ⟨live, [.destroyStream d s], hf', hlive, .inr ⟨d, rfl⟩⟩
    · refine ⟨live ++ [c], [], by simpa using hf', fun c' hc' => ?_, .inl rfl⟩
      rcases List.mem_append.mp hc' with hc' | hc'
      · exact hlive c' hc'
      · rw [List.mem_singleton.mp hc']
        exact hds
  · exact ⟨live, final, by simp [List.filter_append, hf, hcs], hlive, hfinal⟩

/-- A log in which no call naming `s` follows a destruction of `s` has the shape of
`StreamLog`. -/
theorem streamLog_of_not_retired {s : ApiStream} (calls : List Call)
    (h : ∀ pre c post, calls = pre ++ c :: post → c.stream? = some s → ¬ Retired pre s) :
    StreamLog calls s := by
  induction calls using List.reverseRecOn with
  | nil => exact ⟨[], [], rfl, by simp, .inl rfl⟩
  | append_singleton calls c ih =>
      refine (ih fun pre c' post hsplit => h pre c' (post ++ [c]) ?_).append_singleton
        (h calls c [] rfl)
      rw [hsplit, List.append_assoc, List.cons_append]

/-- The calls naming a stream destroy it at most once. -/
theorem StreamLog.count_destroyStream_le_one {calls : List Call} {x : ApiStream}
    (h : StreamLog calls x) (d : Nat) : calls.count (.destroyStream d x) ≤ 1 := by
  obtain ⟨live, final, hf, hlive, hfinal⟩ := h
  have hlive₀ : live.count (.destroyStream d x) = 0 :=
    List.count_eq_zero.mpr fun hm => by rcases hlive _ hm with ⟨_, _, h⟩ | ⟨_, h⟩ <;> cases h
  rw [← List.count_filter (p := fun c => c.stream? == some x) (by simp [Call.stream?]), hf,
    List.count_append, hlive₀]
  rcases hfinal with rfl | ⟨_, rfl⟩ <;> simp [List.count_singleton']
  split <;> omega

namespace World

variable {w w' : World} {held held' : List Ptr}

theorem Valid.streamLog (hv : w.Valid held) (s : ApiStream) : StreamLog w.calls s :=
  streamLog_of_not_retired w.calls fun pre c post hsplit hs =>
    hv.ordered pre c post hsplit s (.inl hs)

/-! ## Who holds what -/

/-- The values in the heap hold references to devices only. -/
theorem eq_device_of_mem_cellRefs {q : Ptr} (hq : q ∈ w.cellRefs) : ∃ d, q = .device d := by
  rcases List.mem_append.mp hq with hq | hq
  · obtain ⟨-, sh, -, -, hq⟩ := ArcHeap.exists_of_mem_liveRefs hq
    exact ⟨_, List.mem_singleton.mp hq⟩
  · obtain ⟨-, r, -, -, hq⟩ := ArcHeap.exists_of_mem_liveRefs hq
    exact ⟨_, List.mem_singleton.mp hq⟩

/-- Only the caller's `Stream` and `CommandBuffer` values hold an `Arc<StreamHandle>`. -/
theorem count_stream_cellRefs (p : Nat) : w.cellRefs.count (.stream p) = 0 :=
  List.count_eq_zero.mpr fun h => by obtain ⟨_, ⟨⟩⟩ := eq_device_of_mem_cellRefs h

/-- Only the caller's values hold an `Arc` of a resource handle. -/
theorem count_resource_cellRefs (p : Nat) : w.cellRefs.count (.resource p) = 0 :=
  List.count_eq_zero.mpr fun h => by obtain ⟨_, ⟨⟩⟩ := eq_device_of_mem_cellRefs h

theorem Valid.streams_strong (hv : w.Valid held) (p : Nat) :
    w.streams.strong p = held.count (.stream p) := by
  have := hv.balanced (.stream p)
  rwa [List.count_append, count_stream_cellRefs, Nat.zero_add] at this

theorem Valid.not_mem_held {q : Ptr} (hv : w.Valid held) (hq : w.strong q = 0) : q ∉ held :=
  fun h => by have := hv.balanced.strong_pos h; omega

/-- A live resource handle keeps its device alive. -/
theorem Valid.resource_device_pos (hv : w.Valid held) {p : Nat} {r : ResourceHandle}
    (hp : 0 < w.resources.strong p) (hr : w.resources.get? p = some r) :
    0 < w.devices.strong r.device.inner := by
  have hmem : Ptr.device r.device.inner ∈ w.cellRefs ++ held :=
    List.mem_append_left _
      (List.mem_append_right _ (ArcHeap.mem_liveRefs hp hr (List.mem_singleton_self _)))
  have := hv.balanced (.device r.device.inner)
  have := List.count_pos_iff.mpr hmem
  simp only [strong] at *
  omega

/-- Once a device has lost its last reference, none of its stream handles is alive. -/
theorem Valid.streams_dead (hv : w.Valid held) {d : Nat} (hd : w.devices.strong d = 0) {p : Nat}
    {sh : StreamHandle} (hsh : w.streams.get? p = some sh) (hdev : sh.device = d) :
    w.streams.strong p = 0 :=
  Nat.eq_zero_of_not_pos fun hp => by have := hdev ▸ hv.device_pos hp hsh; omega

/-- Once a device has lost its last reference, none of its resource handles is alive. -/
theorem Valid.resources_dead (hv : w.Valid held) {d : Nat} (hd : w.devices.strong d = 0) {p : Nat}
    {r : ResourceHandle} (hr : w.resources.get? p = some r) (hdev : r.device.inner = d) :
    w.resources.strong p = 0 :=
  Nat.eq_zero_of_not_pos fun hp => by have := hdev ▸ hv.resource_device_pos hp hr; omega

/-- A device has lost its last reference exactly when its default stream has been destroyed. -/
theorem Valid.device_dead_iff (hv : w.Valid held) {d : Nat} {dh : DeviceHandle}
    (hd : w.devices.get? d = some dh) :
    w.devices.strong d = 0 ↔ Retired w.calls dh.defaultStream := by
  have ho : w.ownedStream (.device d) = some dh.defaultStream := by simp [ownedStream, hd]
  rw [hv.retired]
  constructor
  · exact fun hz => ⟨.device d, ho, hz⟩
  · rintro ⟨o, ho', hz⟩
    cases hv.unique _ _ _ ho ho'
    exact hz

/-- Dropping a `StreamHandle::Default` makes no call of its own: its only call is the
`destroy_stream` of `DeviceHandle::drop`, when it held the last reference to its device. -/
theorem calls_drop_default (w : World) (d : Nat) (x : ApiStream) :
    ((StreamHandle.default d x).drop w).calls =
      w.calls ++ if w.devices.strong d = 1 then [.destroyStream d (w.defaultStreamOf d)] else [] := by
  by_cases h1 : w.devices.strong d = 1
  · obtain ⟨dh, hdh⟩ :=
      Option.isSome_iff_exists.mp (ArcHeap.get?_isSome_of_strong_pos (h1 ▸ Nat.one_pos))
    simp [StreamHandle.drop, World.releaseDevice_of_eq h1 hdh, h1, defaultStreamOf, hdh]
  · simp [StreamHandle.drop, World.releaseDevice_of_ne h1, h1]

/-! ## The live values are the reachable ones

Reference counting is meant to keep a value alive exactly as long as the program can still reach
it. The references a value holds are those of its fields; a value is reachable when the
caller's variables hold a reference to it or a reachable value does. The exact strong counts of
`World.Valid` make the two notions agree: nothing the caller can reach has been dropped, and
nothing it cannot reach is kept alive.
-/

variable (w) in
/-- The strong references held by the value behind a pointer: a `StreamHandle` and a resource
handle hold their device, a `DeviceHandle` holds none. -/
def refsAt : Ptr → List Ptr
  | .device _ => []
  | .stream p => ((w.streams.get? p).map StreamHandle.refs).getD []
  | .resource p => ((w.resources.get? p).map ResourceHandle.refs).getD []

variable (w) in
/-- The values reached from the references `held`, following the references each value holds. -/
inductive Reaches (held : List Ptr) : Ptr → Prop
  | held {q : Ptr} : q ∈ held → Reaches held q
  | field {p q : Ptr} : Reaches held p → q ∈ w.refsAt p → Reaches held q

theorem mem_cellRefs_of_refsAt {p q : Ptr} (hp : 0 < w.strong p) (hq : q ∈ w.refsAt p) :
    q ∈ w.cellRefs := by
  cases p with
  | device _ => cases hq
  | stream p =>
      obtain ⟨sh, hsh⟩ := Option.isSome_iff_exists.mp (ArcHeap.get?_isSome_of_strong_pos hp)
      simp only [refsAt, hsh, Option.map_some', Option.getD_some] at hq
      exact List.mem_append_left _ (ArcHeap.mem_liveRefs hp hsh hq)
  | resource p =>
      obtain ⟨r, hr⟩ := Option.isSome_iff_exists.mp (ArcHeap.get?_isSome_of_strong_pos hp)
      simp only [refsAt, hr, Option.map_some', Option.getD_some] at hq
      exact List.mem_append_right _ (ArcHeap.mem_liveRefs hp hr hq)

/-- A reference held in the heap is held by a live value that only the caller references. -/
theorem exists_of_mem_cellRefs {q : Ptr} (hq : q ∈ w.cellRefs) :
    ∃ p, 0 < w.strong p ∧ q ∈ w.refsAt p ∧ w.cellRefs.count p = 0 := by
  rcases List.mem_append.mp hq with hq | hq
  · obtain ⟨p, sh, hp, hsh, hq⟩ := ArcHeap.exists_of_mem_liveRefs hq
    exact ⟨.stream p, hp, by simpa [refsAt, hsh] using hq, count_stream_cellRefs p⟩
  · obtain ⟨p, r, hp, hr, hq⟩ := ArcHeap.exists_of_mem_liveRefs hq
    exact ⟨.resource p, hp, by simpa [refsAt, hr] using hq, count_resource_cellRefs p⟩

/-- With exact strong counts, a value is alive exactly when the references `held` reach it. -/
theorem Valid.strong_pos_iff_reaches (hv : w.Valid held) (q : Ptr) :
    0 < w.strong q ↔ w.Reaches held q := by
  constructor
  · intro hq
    rw [hv.balanced q, List.count_pos_iff, List.mem_append] at hq
    rcases hq with hq | hq
    · obtain ⟨p, hp, hqp, hcount⟩ := exists_of_mem_cellRefs hq
      have hheld : 0 < held.count p := by
        have := hv.balanced p
        rw [List.count_append, hcount] at this
        omega
      exact .field (.held (List.count_pos_iff.mp hheld)) hqp
    · exact .held hq
  · intro h
    induction h with
    | held hq => exact hv.balanced.strong_pos hq
    | field _ hq ih =>
        rw [hv.balanced]
        exact List.count_pos_iff.mpr (List.mem_append_left _ (mem_cellRefs_of_refsAt ih hq))

/-! ## What a step destroys -/

/-- Between two valid worlds, the calls appended destroy a stream exactly when its owner has
lost its last reference. -/
theorem Valid.retired_new_iff (hv : w.Valid held) (hv' : w'.Valid held') (hext : w.Extends w')
    {new : List Call} (hnew : w'.calls = w.calls ++ new) {o : Owner} {s : ApiStream}
    (ho : w.ownedStream o = some s) :
    Retired new s ↔ 0 < w.ownerStrong o ∧ w'.ownerStrong o = 0 := by
  have ho' := hext.ownedStream ho
  constructor
  · rintro ⟨d, hd⟩
    obtain ⟨o', ho'', hz⟩ := (hv'.retired s).mp ⟨d, hnew ▸ List.mem_append_right _ hd⟩
    obtain ⟨n₁, n₂, rfl⟩ := List.append_of_mem hd
    have hfirst : ¬ Retired (w.calls ++ n₁) s :=
      hv'.ordered _ (.destroyStream d s) n₂ (by rw [hnew, List.append_assoc]) s (.inl rfl)
    refine ⟨Nat.pos_of_ne_zero fun hz' => hfirst ?_, ?_⟩
    · exact Retired.of_prefix ((hv.retired s).mpr ⟨o, ho, hz'⟩)
    · rwa [hv'.unique o o' s ho' ho'']
  · rintro ⟨hpos, hz⟩
    have hr : Retired (w.calls ++ new) s := hnew ▸ (hv'.retired s).mpr ⟨o, ho', hz⟩
    exact (retired_append_iff.mp hr).resolve_left (hv.not_retired ho hpos)

end World

/-- What one step does to the lifetimes of streams, `new` being the calls it makes. -/
structure StreamLifetimes (s s' : State) (new : List Call) : Prop where
  /-- No call names a stream after it has been destroyed, and none destroys it twice. -/
  log : ∀ x, StreamLog s'.world.calls x
  /-- A non-default stream is destroyed by the step that drops the last `Stream` or
  `CommandBuffer` holding its `StreamHandle`, and by no other. -/
  nonDefault : ∀ p d x, s.world.streams.get? p = some (.nonDefault d x) →
    (Retired new x ↔ 0 < s.held.count (.stream p) ∧ s'.held.count (.stream p) = 0)
  /-- A default stream is destroyed by the step that drops the last reference to its
  `DeviceHandle`, and by no other. -/
  default : ∀ d dh, s.world.devices.get? d = some dh →
    (Retired new dh.defaultStream ↔ 0 < s.world.devices.strong d ∧ s'.world.devices.strong d = 0)
  /-- After the default stream of a device is destroyed, the caller holds no `Device`, `Stream`
  or `CommandBuffer` of that device. -/
  deviceLast : ∀ d dh, s'.world.devices.get? d = some dh → Retired s'.world.calls dh.defaultStream →
    .device d ∉ s'.held ∧
      ∀ p sh, s'.world.streams.get? p = some sh → sh.device = d → .stream p ∉ s'.held
  /-- Every non-default stream of a device is destroyed before its default stream. -/
  defaultLast : s'.world.DefaultLast

theorem stream_lifetimes :
    (∀ (w : World) d x, ((StreamHandle.default d x).drop w).calls =
      w.calls ++ if w.devices.strong d = 1 then [.destroyStream d (w.defaultStreamOf d)] else []) ∧
    ∀ {s s' : State} {a : Action}, Reachable s → s.step a = some s' →
      ∃ new, s'.world.calls = s.world.calls ++ new ∧ StreamLifetimes s s' new := by
  refine ⟨World.calls_drop_default, fun {s s' a} hs h => ?_⟩
  have hv : s.world.Valid s.held := hs.valid
  obtain ⟨hv', ⟨hext, -⟩, -⟩ := hs.valid.step h
  have hv' : s'.world.Valid s'.held := hv'
  obtain ⟨new, hnew⟩ := hext.calls
  refine ⟨new, hnew.symm, ⟨hv'.streamLog, fun p d x hp => ?_, fun d dh hd => ?_,
    fun d dh hd hr => ?_, hv'.defaultLast⟩⟩
  · have ho : s.world.ownedStream (.stream p) = some x := by
      simp [World.ownedStream, hp, StreamHandle.owned?]
    rw [hv.retired_new_iff hv' hext hnew.symm ho]
    simp only [World.ownerStrong, hv.streams_strong, hv'.streams_strong]
  · exact hv.retired_new_iff hv' hext hnew.symm (o := .device d) (by simp [World.ownedStream, hd])
  · have hz := (hv'.device_dead_iff hd).mpr hr
    exact ⟨hv'.not_mem_held (q := .device d) hz, fun p sh hsh hdev =>
      hv'.not_mem_held (q := .stream p) (hv'.streams_dead hz hsh hdev)⟩

/-- The commit of a command buffer of the default stream that outlives its `Stream` and every
`Device` clone: the step dispatches, then destroys the default stream through
`Drop for DeviceHandle`. -/
theorem stream_lifetimes_orphaned_commit :
    Reachable ⟨⟨⟨[⟨⟨⟨0⟩⟩, 1⟩]⟩, ⟨[⟨.default 0 ⟨0⟩, 1⟩]⟩, ⟨[]⟩, 1, []⟩,
        [none, none, some (.commandBuffer ⟨0, []⟩)]⟩ ∧
      State.step ⟨⟨⟨[⟨⟨⟨0⟩⟩, 1⟩]⟩, ⟨[⟨.default 0 ⟨0⟩, 1⟩]⟩, ⟨[]⟩, 1, []⟩,
          [none, none, some (.commandBuffer ⟨0, []⟩)]⟩ (.commit 2 (.ok ())) =
        some ⟨⟨⟨[⟨⟨⟨0⟩⟩, 0⟩]⟩, ⟨[⟨.default 0 ⟨0⟩, 0⟩]⟩, ⟨[]⟩, 1,
          [.dispatch 0 ⟨0⟩ [], .destroyStream 0 ⟨0⟩]⟩, [none, none, none]⟩ ∧
      ∃ new, [.dispatch 0 ⟨0⟩ [], .destroyStream 0 ⟨0⟩] = [] ++ new ∧
        StreamLifetimes
          ⟨⟨⟨[⟨⟨⟨0⟩⟩, 1⟩]⟩, ⟨[⟨.default 0 ⟨0⟩, 1⟩]⟩, ⟨[]⟩, 1, []⟩,
            [none, none, some (.commandBuffer ⟨0, []⟩)]⟩
          ⟨⟨⟨[⟨⟨⟨0⟩⟩, 0⟩]⟩, ⟨[⟨.default 0 ⟨0⟩, 0⟩]⟩, ⟨[]⟩, 1,
            [.dispatch 0 ⟨0⟩ [], .destroyStream 0 ⟨0⟩]⟩, [none, none, none]⟩ new :=
  have hs : Reachable ⟨⟨⟨[⟨⟨⟨0⟩⟩, 1⟩]⟩, ⟨[⟨.default 0 ⟨0⟩, 1⟩]⟩, ⟨[]⟩, 1, []⟩,
      [none, none, some (.commandBuffer ⟨0, []⟩)]⟩ :=
    Reachable.init.run (show State.init.run [.newDevice, .defaultStream 0, .commandBuffer 1,
      .drop 0, .drop 1] = _ from rfl)
  ⟨hs, rfl, stream_lifetimes.2 hs (show State.step _ (.commit 2 (.ok ())) = _ from rfl)⟩

/-- What holds of a device `d` and its `DeviceHandle` `dh` in a state. -/
structure DeviceLifetime (s : State) (d : Nat) (dh : DeviceHandle) : Prop where
  /-- The `DeviceHandle` has been dropped exactly when its default stream has been destroyed. -/
  dropped_iff : s.world.devices.strong d = 0 ↔ Retired s.world.calls dh.defaultStream
  /-- Once it has been dropped, so has every resource handle created through a clone of the
  device, and the caller holds no resource value of it. -/
  resources : s.world.devices.strong d = 0 → ∀ p r, s.world.resources.get? p = some r →
    r.device.inner = d → s.world.resources.strong p = 0 ∧ .resource p ∉ s.held
  /-- Every call its backend received, the resource frees included, came before the destruction
  of its default stream. -/
  callsFirst : ∀ pre c post, s.world.calls = pre ++ c :: post → c.device = d →
    ¬ Retired pre dh.defaultStream

theorem device_outlives_resources {s : State} (hs : Reachable s) {d : Nat} {dh : DeviceHandle}
    (hd : s.world.devices.get? d = some dh) : DeviceLifetime s d dh := by
  have hv : s.world.Valid s.held := hs.valid
  have ho : s.world.ownedStream (.device d) = some dh.defaultStream := by
    simp [World.ownedStream, hd]
  refine ⟨hv.device_dead_iff hd, fun hz p r hr hdev => ?_, fun pre c post hsplit hc => ?_⟩
  · have hdead := hv.resources_dead hz hr hdev
    exact ⟨hdead, hv.not_mem_held (q := .resource p) hdead⟩
  · exact hv.ordered pre c post hsplit _ (.inr (hc ▸ ho))

/-- A device dropped before its buffer: the buffer's drop frees the buffer, then drops the
`DeviceHandle`, which destroys the default stream last. -/
theorem device_outlives_resources_device_dropped_first :
    Reachable ⟨⟨⟨[⟨⟨⟨0⟩⟩, 0⟩]⟩, ⟨[]⟩, ⟨[⟨⟨.buffer, ⟨0⟩, 1⟩, 0⟩]⟩, 2,
        [.createBuffer 0 64, .destroyBuffer 0 1, .destroyStream 0 ⟨0⟩]⟩, [none, none]⟩ ∧
      (World.devices ⟨⟨[⟨⟨⟨0⟩⟩, 0⟩]⟩, ⟨[]⟩, ⟨[⟨⟨.buffer, ⟨0⟩, 1⟩, 0⟩]⟩, 2,
        [.createBuffer 0 64, .destroyBuffer 0 1, .destroyStream 0 ⟨0⟩]⟩).get? 0 = some ⟨⟨0⟩⟩ ∧
      DeviceLifetime ⟨⟨⟨[⟨⟨⟨0⟩⟩, 0⟩]⟩, ⟨[]⟩, ⟨[⟨⟨.buffer, ⟨0⟩, 1⟩, 0⟩]⟩, 2,
        [.createBuffer 0 64, .destroyBuffer 0 1, .destroyStream 0 ⟨0⟩]⟩, [none, none]⟩ 0 ⟨⟨0⟩⟩ :=
  have hs : Reachable ⟨⟨⟨[⟨⟨⟨0⟩⟩, 0⟩]⟩, ⟨[]⟩, ⟨[⟨⟨.buffer, ⟨0⟩, 1⟩, 0⟩]⟩, 2,
      [.createBuffer 0 64, .destroyBuffer 0 1, .destroyStream 0 ⟨0⟩]⟩, [none, none]⟩ :=
    Reachable.init.run
      (show State.init.run [.newDevice, .createBuffer 0 4 16 (.ok ()), .drop 0, .drop 1] = _ from rfl)
  ⟨hs, rfl, device_outlives_resources hs rfl⟩

/-- In every reachable state a value is alive exactly when the caller's variables reach it. -/
theorem alive_iff_reached {s : State} (hs : Reachable s) (q : Ptr) :
    0 < s.world.strong q ↔ s.world.Reaches s.held q :=
  hs.valid.strong_pos_iff_reaches q

/-- A device that only the `StreamHandle` of an orphaned command buffer reaches is alive, and a
dropped buffer, which nothing reaches, is not. -/
theorem alive_iff_reached_orphaned_command_buffer :
    Reachable ⟨⟨⟨[⟨⟨⟨0⟩⟩, 1⟩]⟩, ⟨[⟨.default 0 ⟨0⟩, 1⟩]⟩, ⟨[⟨⟨.buffer, ⟨0⟩, 1⟩, 0⟩]⟩, 2,
        [.createBuffer 0 64, .destroyBuffer 0 1]⟩, [none, none, none, some (.commandBuffer ⟨0, []⟩)]⟩ ∧
      (0 < World.strong ⟨⟨[⟨⟨⟨0⟩⟩, 1⟩]⟩, ⟨[⟨.default 0 ⟨0⟩, 1⟩]⟩, ⟨[⟨⟨.buffer, ⟨0⟩, 1⟩, 0⟩]⟩, 2,
          [.createBuffer 0 64, .destroyBuffer 0 1]⟩ (.device 0) ↔
        World.Reaches ⟨⟨[⟨⟨⟨0⟩⟩, 1⟩]⟩, ⟨[⟨.default 0 ⟨0⟩, 1⟩]⟩, ⟨[⟨⟨.buffer, ⟨0⟩, 1⟩, 0⟩]⟩, 2,
          [.createBuffer 0 64, .destroyBuffer 0 1]⟩ [.stream 0] (.device 0)) ∧
      (0 < World.strong ⟨⟨[⟨⟨⟨0⟩⟩, 1⟩]⟩, ⟨[⟨.default 0 ⟨0⟩, 1⟩]⟩, ⟨[⟨⟨.buffer, ⟨0⟩, 1⟩, 0⟩]⟩, 2,
          [.createBuffer 0 64, .destroyBuffer 0 1]⟩ (.resource 0) ↔
        World.Reaches ⟨⟨[⟨⟨⟨0⟩⟩, 1⟩]⟩, ⟨[⟨.default 0 ⟨0⟩, 1⟩]⟩, ⟨[⟨⟨.buffer, ⟨0⟩, 1⟩, 0⟩]⟩, 2,
          [.createBuffer 0 64, .destroyBuffer 0 1]⟩ [.stream 0] (.resource 0)) :=
  have hs : Reachable ⟨⟨⟨[⟨⟨⟨0⟩⟩, 1⟩]⟩, ⟨[⟨.default 0 ⟨0⟩, 1⟩]⟩, ⟨[⟨⟨.buffer, ⟨0⟩, 1⟩, 0⟩]⟩, 2,
      [.createBuffer 0 64, .destroyBuffer 0 1]⟩, [none, none, none, some (.commandBuffer ⟨0, []⟩)]⟩ :=
    Reachable.init.run (show State.init.run [.newDevice, .createBuffer 0 4 16 (.ok ()), .drop 1,
      .defaultStream 0, .commandBuffer 2, .drop 0, .drop 2] = _ from rfl)
  ⟨hs, alive_iff_reached hs _, alive_iff_reached hs _⟩

end LuisaCompute
