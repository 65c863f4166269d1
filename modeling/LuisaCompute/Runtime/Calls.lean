import Mathlib.Data.List.Count
import Mathlib.Data.List.Nodup
import LuisaCompute.Runtime.Lifetime

/-! # The calls each API function makes

`commit` makes one dispatch of the recorded descriptors, and every call after it releases backend
state held by the command buffer it consumes. Among those are the frees of the resources whose
last references were in the commands' trackers: they follow the dispatch at once, before any
synchronization of the stream. When the caller keeps a reference to every tracked resource, the
only calls after the dispatch destroy the command buffer's own stream and the default stream of
its device, each at most once. `submit_default_stream_and_sync` makes one dispatch on the default
stream and, when it succeeds, one synchronization, with such releases around it.
`create_buffer` asks the backend for `size_of::<T>() * count` bytes computed in `usize`.
-/

namespace LuisaCompute

namespace World

variable {w w' w'' : World}

/-! ## Releases -/

/-- `w'` has appended to the calls of `w` only calls that release backend state. -/
def ReleasesOnly (w w' : World) : Prop :=
  ∃ rest, w'.calls = w.calls ++ rest ∧ ∀ c ∈ rest, c.isRelease

theorem releasesOnly_release (w : World) (q : Ptr) : ReleasesOnly w (w.release q) :=
  ⟨_, (w.release_spec q).1.calls, fun _ hc => (dropCall_of_mem_releaseCalls hc).isRelease⟩

theorem releasesOnly_releaseAll (w : World) (ps : List Ptr) : ReleasesOnly w (w.releaseAll ps) :=
  have ⟨_, hd, hnew⟩ := w.releaseAll_spec ps
  ⟨_, hd.calls, fun c hc => (hnew c hc).isRelease⟩

/-! ## Resource handles -/

theorem resources_strong_release (q : Ptr) (p : Nat) :
    (w.release q).resources.strong p = w.resources.strong p - if q = .resource p then 1 else 0 := by
  rw [(w.release_spec q).2]
  cases q with
  | resource p' =>
      rw [ArcHeap.strong_release]
      by_cases h : p = p'
      · subst h; simp
      · simp [h, Ne.symm h]
  | _ => simp

/-- Releasing at least as many references to a live resource handle as it has frees it. -/
theorem free_mem_releaseAll {p : Nat} {r : ResourceHandle} :
    ∀ {w : World} {ps : List Ptr}, w.resources.get? p = some r → 0 < w.resources.strong p →
      w.resources.strong p ≤ ps.count (.resource p) →
      ∃ rest, (w.releaseAll ps).calls = w.calls ++ rest ∧ r.free ∈ rest
  | w, [], _, hpos, hle => by simp at hle; omega
  | w, q :: ps, hr, hpos, hle => by
      obtain ⟨r₁, h₁, -⟩ := releasesOnly_release w q
      by_cases hlast : q = .resource p ∧ w.resources.strong p = 1
      · obtain ⟨rfl, h1⟩ := hlast
        have hfree : r.free ∈ w.releaseCalls (.resource p) := by
          simp [releaseCalls, ArcHeap.release_snd, h1, hr]
        obtain ⟨r₃, h₃, -⟩ := releasesOnly_releaseAll (w.release (.resource p)) ps
        exact ⟨_, by rw [releaseAll_cons, h₃, (w.release_spec _).1.calls, List.append_assoc],
          List.mem_append_left _ hfree⟩
      · have hpos' : 0 < (w.release q).resources.strong p := by
          rw [resources_strong_release]
          split
          · next hq =>
              have : w.resources.strong p ≠ 1 := fun h => hlast ⟨hq, h⟩
              omega
          · omega
        have hle' : (w.release q).resources.strong p ≤ ps.count (.resource p) := by
          rw [resources_strong_release]
          simp only [List.count_cons, beq_iff_eq] at hle
          by_cases hq : q = .resource p <;> simp [hq] at hle ⊢ <;> omega
        obtain ⟨rest, hrest, hmem⟩ :=
          free_mem_releaseAll ((congrFun (w.release_spec q).1.resources p).trans hr) hpos' hle'
        exact ⟨r₁ ++ rest, by rw [releaseAll_cons, hrest, h₁, List.append_assoc],
          List.mem_append_right _ hmem⟩

/-- The calls of `f (w.clone (.device d)).call c` then the release of the clone: `c`, then
releases. -/
theorem calls_withDevice (d : Nat) (c : Call) :
    ∃ rest, (((w.clone (.device d)).call c).release (.device d)).calls = w.calls ++ c :: rest ∧
      ∀ x ∈ rest, x.isRelease := by
  obtain ⟨rest, h, hr⟩ := releasesOnly_release ((w.clone (.device d)).call c) (.device d)
  exact ⟨rest, by simpa using h, hr⟩

end World

/-! ## `commit` -/

/-- `commit` returns the answer to its dispatch, and makes the dispatch, then releases. -/
theorem CommandBuffer.commit_spec (cb : CommandBuffer) (answer : Except BackendError Unit)
    (w : World) :
    (cb.commit answer w).1 = answer ∧ ∃ rest, (cb.commit answer w).2.calls =
      w.calls ++ .dispatch (w.streamHandle cb.stream).device (w.streamHandle cb.stream).handle
        (cb.commands.map Command.inner) :: rest ∧ ∀ c ∈ rest, c.isRelease := by
  refine ⟨rfl, ?_⟩
  obtain ⟨r₁, h₁, hr₁⟩ := World.calls_withDevice (w := w) (w.streamHandle cb.stream).device
    (.dispatch (w.streamHandle cb.stream).device (w.streamHandle cb.stream).handle
      (cb.commands.map Command.inner))
  obtain ⟨r₂, h₂, hr₂⟩ := World.releasesOnly_releaseAll
    (((w.clone (.device (w.streamHandle cb.stream).device)).call
      (.dispatch (w.streamHandle cb.stream).device (w.streamHandle cb.stream).handle
        (cb.commands.map Command.inner))).release (.device (w.streamHandle cb.stream).device))
    cb.refs
  refine ⟨r₁ ++ r₂, ?_, fun c hc => (List.mem_append.mp hc).elim (hr₁ c) (hr₂ c)⟩
  simp only [CommandBuffer.commit, CommandBuffer.drop, h₂, h₁]
  simp

/-- `commit` frees every resource whose last references the command buffer held, right after
the dispatch: no synchronization of the stream comes between. -/
theorem CommandBuffer.commit_frees_tracked (cb : CommandBuffer) (answer : Except BackendError Unit)
    (w : World) {p : Nat} {r : ResourceHandle} (hr : w.resources.get? p = some r)
    (hpos : 0 < w.resources.strong p) (hlast : w.resources.strong p ≤ cb.refs.count (.resource p)) :
    ∃ rest, (cb.commit answer w).2.calls =
      w.calls ++ .dispatch (w.streamHandle cb.stream).device (w.streamHandle cb.stream).handle
        (cb.commands.map Command.inner) :: rest ∧ r.free ∈ rest ∧ ∀ c ∈ rest, c.isRelease := by
  set sh := w.streamHandle cb.stream
  set w₁ := ((w.clone (.device sh.device)).call
    (.dispatch sh.device sh.handle (cb.commands.map Command.inner))).release (.device sh.device)
  have hres : w₁.resources = w.resources := (World.release_spec _ _).2
  obtain ⟨r₁, h₁, hr₁⟩ := World.calls_withDevice (w := w) sh.device
    (.dispatch sh.device sh.handle (cb.commands.map Command.inner))
  obtain ⟨r₂, h₂, hr₂⟩ := World.releasesOnly_releaseAll w₁ cb.refs
  have hle : w₁.resources.strong p ≤ cb.refs.count (.resource p) := hres ▸ hlast
  obtain ⟨r₃, h₃, hfree⟩ := World.free_mem_releaseAll (hres ▸ hr) (hres ▸ hpos) hle
  cases List.append_cancel_left (h₃.symm.trans h₂)
  refine ⟨r₁ ++ r₂, ?_, List.mem_append_right _ hfree,
    fun c hc => (List.mem_append.mp hc).elim (hr₁ c) (hr₂ c)⟩
  show (w₁.releaseAll cb.refs).calls = _
  rw [h₂, h₁]
  simp

/-- A command whose tracker holds the last reference to a buffer: committing it frees the buffer
right after the dispatch. -/
theorem commit_frees_buffer_before_sync :
    (State.init.run [.newDevice, .createBuffer 0 4 16 (.ok ()), .command ⟨7⟩ [1], .drop 1,
      .defaultStream 0, .commandBuffer 3, .push 4 2, .commit 4 (.ok ())]).map (·.world.calls) =
      some [.createBuffer 0 64, .dispatch 0 ⟨0⟩ [⟨7⟩], .destroyBuffer 0 1] :=
  rfl

/-- A call recording commands into a command buffer. -/
inductive Record
  | push (c : Command)
  | extend (cs : List Command)

namespace Record

def commands : Record → List Command
  | push c => [c]
  | extend cs => cs

end Record

theorem Stream.synchronize_spec (st : Stream) (answer : Except BackendError Unit) (w : World) :
    (st.synchronize answer w).1 = answer ∧ ∃ rest, (st.synchronize answer w).2.calls =
      w.calls ++ .synchronizeStream (w.streamHandle st.handle).device
        (w.streamHandle st.handle).handle :: rest ∧ ∀ c ∈ rest, c.isRelease :=
  ⟨rfl, World.calls_withDevice _ _⟩

@[simp] theorem Device.calls_defaultStream (d : Device) (w : World) :
    (d.defaultStream w).2.calls = w.calls :=
  rfl

theorem Device.get?_defaultStream (d : Device) (w : World) :
    (d.defaultStream w).2.streams.get? (d.defaultStream w).1.handle =
      some (.default d.inner (w.defaultStreamOf d.inner)) := by
  simp [Device.defaultStream, World.allocStream]

theorem filter_not_isRelease {l : List Call} (h : ∀ c ∈ l, c.isRelease) :
    l.filter (fun c => !c.isRelease) = [] :=
  List.filter_eq_nil_iff.mpr fun c hc => by simp [h c hc]

/-- `submit_default_stream_and_sync` returns the dispatch's error or the synchronization's
answer; it dispatches on the default stream, and synchronizes it after a successful dispatch;
its other calls release backend state. -/
theorem submit_spec (d : Device) (cs : List Command)
    (dispatchAnswer syncAnswer : Except BackendError Unit) (w : World) :
    (submitDefaultStreamAndSync d cs dispatchAnswer syncAnswer w).1 =
        dispatchAnswer.bind (fun _ => syncAnswer) ∧
      ∃ rest, (submitDefaultStreamAndSync d cs dispatchAnswer syncAnswer w).2.calls =
          w.calls ++ .dispatch d.inner (w.defaultStreamOf d.inner) (cs.map Command.inner) :: rest ∧
        rest.filter (fun c => !c.isRelease) =
          if dispatchAnswer.isOk then [.synchronizeStream d.inner (w.defaultStreamOf d.inner)]
          else [] := by
  have hget := Device.get?_defaultStream d w
  rcases hds : d.defaultStream w with ⟨st, w₁⟩
  rw [hds] at hget
  have hcalls₁ : w₁.calls = w.calls := by rw [← Device.calls_defaultStream d w, hds]
  have hget₂ : (w₁.clone (.stream st.handle)).streams.get? st.handle =
      some (.default d.inner (w.defaultStreamOf d.inner)) := by
    simpa using hget
  have hsh₂ : (w₁.clone (.stream st.handle)).streamHandle st.handle =
      .default d.inner (w.defaultStreamOf d.inner) := by
    simp [World.streamHandle, hget₂]
  rcases hc : (⟨st.handle, cs⟩ : CommandBuffer).commit dispatchAnswer
    (w₁.clone (.stream st.handle)) with ⟨r, w₃⟩
  obtain ⟨hr, r₁, h₁, hr₁⟩ :=
    (⟨st.handle, cs⟩ : CommandBuffer).commit_spec dispatchAnswer (w₁.clone (.stream st.handle))
  rw [hc] at hr h₁
  simp only [hsh₂, StreamHandle.device, StreamHandle.handle, World.calls_clone, hcalls₁] at h₁
  subst hr
  simp only [submitDefaultStreamAndSync, hds, Stream.commandBuffer, CommandBuffer.extend,
    List.nil_append, hc]
  rcases r with e | ⟨⟩
  · dsimp only
    obtain ⟨r₂, h₂, hr₂⟩ := World.releasesOnly_releaseAll w₃ st.refs
    refine ⟨rfl, r₁ ++ r₂, by simp [Stream.drop, h₂, h₁], ?_⟩
    exact filter_not_isRelease fun c hc => (List.mem_append.mp hc).elim (hr₁ c) (hr₂ c)
  · dsimp only
    have hsh₃ : w₃.streamHandle st.handle = .default d.inner (w.defaultStreamOf d.inner) := by
      have := (World.Extends.commit (w₁.clone (.stream st.handle)) ⟨st.handle, cs⟩ (.ok ())).streams
        st.handle _ hget₂
      rw [hc] at this
      simp [World.streamHandle, this]
    obtain ⟨-, r₂, h₂, hr₂⟩ := st.synchronize_spec syncAnswer w₃
    obtain ⟨r₃, h₃, hr₃⟩ := World.releasesOnly_releaseAll (st.synchronize syncAnswer w₃).2 st.refs
    simp only [hsh₃, StreamHandle.device, StreamHandle.handle] at h₂
    refine ⟨rfl, r₁ ++ .synchronizeStream d.inner (w.defaultStreamOf d.inner) :: (r₂ ++ r₃),
      by simp [Stream.drop, h₃, h₂, h₁], ?_⟩
    rw [List.filter_append, filter_not_isRelease hr₁, List.filter_cons, filter_not_isRelease
      fun c hc => (List.mem_append.mp hc).elim (hr₂ c) (hr₃ c)]
    rfl

/-- What `submit_default_stream_and_sync` does with the backend; `rest` are the calls after its
dispatch. -/
structure SubmitCalls (d : Device) (cs : List Command)
    (dispatchAnswer syncAnswer : Except BackendError Unit) (w : World) (rest : List Call) :
    Prop where
  /-- It returns the dispatch's error unchanged, and otherwise the synchronization's answer. -/
  result : (submitDefaultStreamAndSync d cs dispatchAnswer syncAnswer w).1 =
    dispatchAnswer.bind fun _ => syncAnswer
  /-- Its first call dispatches the descriptors of `cs`, in order, on the default stream. -/
  calls : (submitDefaultStreamAndSync d cs dispatchAnswer syncAnswer w).2.calls =
    w.calls ++ .dispatch d.inner (w.defaultStreamOf d.inner) (cs.map Command.inner) :: rest
  /-- Its only later call that releases nothing synchronizes the default stream, when the
  dispatch succeeded. -/
  synchronizes : rest.filter (fun c => !c.isRelease) =
    if dispatchAnswer.isOk then [.synchronizeStream d.inner (w.defaultStreamOf d.inner)] else []
  /-- It destroys a stream exactly when the stream's owner loses its last reference. -/
  destroys : ∀ o x, w.ownedStream o = some x → (Retired rest x ↔
    0 < w.ownerStrong o ∧ (submitDefaultStreamAndSync d cs dispatchAnswer syncAnswer w).2.ownerStrong o = 0)
  /-- It never destroys the default stream. -/
  keepsDefault : ¬ Retired rest (w.defaultStreamOf d.inner)

theorem submit_default_stream_calls {w : World} {held : List Ptr} {d : Device} {cs : List Command}
    (hv : w.Valid (cs.flatMap Command.refs ++ held)) (hd : .device d.inner ∈ held)
    (dispatchAnswer syncAnswer : Except BackendError Unit) :
    ∃ rest, SubmitCalls d cs dispatchAnswer syncAnswer w rest := by
  obtain ⟨hres, rest, hcalls, hfilter⟩ := submit_spec d cs dispatchAnswer syncAnswer w
  have hv' := hv.submitDefaultStreamAndSync hd dispatchAnswer syncAnswer
  have hdestroy (o : Owner) (x : ApiStream) (ho : w.ownedStream o = some x) :
      Retired rest x ↔ 0 < w.ownerStrong o ∧
        (submitDefaultStreamAndSync d cs dispatchAnswer syncAnswer w).2.ownerStrong o = 0 := by
    rw [← hv.retired_new_iff hv' (.submitDefaultStreamAndSync w d cs _ _) hcalls ho]
    simp [Retired]
  refine ⟨rest, hres, hcalls, hfilter, hdestroy, ?_⟩
  have hpos : 0 < w.devices.strong d.inner := hv.balanced.strong_pos (List.mem_append_right _ hd)
  rw [hdestroy (.device d.inner) _ (World.ownedStream_device_of_pos hpos)]
  rintro ⟨-, hz⟩
  exact absurd hz (Nat.pos_iff_ne_zero.mp (hv'.balanced.strong_pos hd))

/-- A command whose tracker holds the last reference to a buffer: the buffer is freed between
the dispatch and the synchronization. -/
theorem submit_frees_buffer_before_sync :
    (State.init.run [.newDevice, .createBuffer 0 4 16 (.ok ()), .command ⟨7⟩ [1], .drop 1,
      .submitDefaultStreamAndSync 0 [2] (.ok ()) (.ok ())]).map (·.world.calls) =
      some [.createBuffer 0 64, .dispatch 0 ⟨0⟩ [⟨7⟩], .destroyBuffer 0 1,
        .synchronizeStream 0 ⟨0⟩] :=
  rfl

/-! ## `create_buffer` -/

/-- On success `create_buffer` asks the backend for `usizeMul elemSize count` bytes, and returns
a buffer of `count` elements of `elemSize` bytes. -/
theorem Device.createBuffer_ok (d : Device) (elemSize count : Nat) (w : World) :
    (d.createBuffer elemSize count (.ok ()) w).1 =
        .ok ⟨d, w.resources.cells.length, count, elemSize⟩ ∧
      (d.createBuffer elemSize count (.ok ()) w).2.calls =
        w.calls ++ [.createBuffer d.inner (usizeMul elemSize count)] :=
  ⟨rfl, rfl⟩

/-- The bytes requested cover the buffer exactly when the product does not wrap. -/
theorem le_usizeMul_iff (a b : Nat) : b * a ≤ usizeMul a b ↔ a * b < 2 ^ 64 := by
  unfold usizeMul
  rw [Nat.mul_comm b a]
  constructor
  · intro h
    have := Nat.mod_lt (a * b) (Nat.two_pow_pos 64)
    exact Nat.lt_of_le_of_lt h this
  · intro h
    rw [Nat.mod_eq_of_lt h]

theorem createBuffer_wraps (d : Device) (w : World) :
    (d.createBuffer 4 (2 ^ 62 + 1) (.ok ()) w).1 =
        .ok ⟨d, w.resources.cells.length, 2 ^ 62 + 1, 4⟩ ∧
      (d.createBuffer 4 (2 ^ 62 + 1) (.ok ()) w).2.calls = w.calls ++ [.createBuffer d.inner 4] ∧
      4 < (2 ^ 62 + 1) * 4 :=
  ⟨rfl, rfl, by decide⟩

end LuisaCompute
