import LuisaCompute.Runtime.Steps

/-! # Every call names a stream of the backend that receives it

A `StreamHandle` pairs a device with a stream of that device's backend: the default stream of
the `DeviceHandle` it was built from, or the stream that device's backend created for it. The
calls naming a stream (`dispatch`, `synchronize_stream`, `destroy_stream`) take the backend and
the stream from the same `StreamHandle`, or from the same `DeviceHandle`, so no backend is ever
handed a stream of another device.

`World.OwnCalls w w'` says that `w'` extends `w` and that the calls it appended name only streams
of their own backend. Every primitive and every API function satisfies it, and a stream of a
device stays one as the world grows, so the whole log of a reachable state has the property.
-/

namespace LuisaCompute

namespace World

variable {w w' w'' : World} {held : List Ptr}

/-- `x` is a stream of the backend of device `d`: its default stream, or a stream that backend
created for a non-default `StreamHandle` of `d`. -/
def StreamOf (w : World) (d : Nat) (x : ApiStream) : Prop :=
  w.ownedStream (.device d) = some x ∨ ∃ p, w.streams.get? p = some (.nonDefault d x)

/-- The stream a call names, if any, is one of the backend that receives the call. -/
def OwnStreamCall (w : World) (c : Call) : Prop := ∀ x, c.stream? = some x → w.StreamOf c.device x

/-- Every call of the log names only streams of the backend that received it. -/
def CallsOwnStreams (w : World) : Prop := ∀ c ∈ w.calls, w.OwnStreamCall c

/-- `w'` extends `w`, and the calls it appended name only streams of their own backend. -/
def OwnCalls (w w' : World) : Prop :=
  w.Extends w' ∧ ∃ new, w'.calls = w.calls ++ new ∧ ∀ c ∈ new, w'.OwnStreamCall c

theorem StreamOf.mono {d : Nat} {x : ApiStream} (h : w.StreamOf d x) (hext : w.Extends w') :
    w'.StreamOf d x :=
  h.imp hext.ownedStream fun ⟨p, hp⟩ => ⟨p, hext.streams p _ hp⟩

theorem OwnStreamCall.mono {c : Call} (h : w.OwnStreamCall c) (hext : w.Extends w') :
    w'.OwnStreamCall c :=
  fun x hx => (h x hx).mono hext

theorem CallsOwnStreams.extend (h : w.CallsOwnStreams) (ho : OwnCalls w w') :
    w'.CallsOwnStreams := by
  obtain ⟨hext, new, hcalls, hnew⟩ := ho
  intro c hc
  rcases List.mem_append.mp (hcalls ▸ hc) with hc | hc
  · exact (h c hc).mono hext
  · exact hnew c hc

/-- A `StreamHandle` names a stream of its own device. -/
theorem Valid.streamOf_handle (hv : w.Valid held) {p : Nat} {sh : StreamHandle}
    (hsh : w.streams.get? p = some sh) : w.StreamOf sh.device sh.handle := by
  cases sh with
  | default d s => exact .inl (hv.defaults p d s hsh)
  | nonDefault d h => exact .inr ⟨p, hsh⟩

/-! ## Appending calls -/

theorem OwnCalls.of_calls (hext : w.Extends w') (h : w'.calls = w.calls) : OwnCalls w w' :=
  ⟨hext, [], by simp [h], by simp⟩

theorem OwnCalls.refl (w : World) : OwnCalls w w := .of_calls (.refl w) rfl

/-- Calls that name no stream. -/
theorem OwnCalls.of_stream?_eq_none (hext : w.Extends w') (new : List Call)
    (h : w'.calls = w.calls ++ new) (hnew : ∀ c ∈ new, c.stream? = none) : OwnCalls w w' :=
  ⟨hext, new, h, fun c hc x hx => by simp [hnew c hc] at hx⟩

theorem OwnCalls.trans (h₁ : OwnCalls w w') (h₂ : OwnCalls w' w'') : OwnCalls w w'' := by
  obtain ⟨hext₁, n₁, h₁, hn₁⟩ := h₁
  obtain ⟨hext₂, n₂, h₂, hn₂⟩ := h₂
  refine ⟨hext₁.trans hext₂, n₁ ++ n₂, by rw [h₂, h₁, List.append_assoc], fun c hc => ?_⟩
  rcases List.mem_append.mp hc with hc | hc
  · exact (hn₁ c hc).mono hext₂
  · exact hn₂ c hc

theorem OwnCalls.call {c : Call} (hc : w.OwnStreamCall c) : OwnCalls w (w.call c) :=
  ⟨.call w c, [c], rfl, by simpa using hc⟩

theorem OwnCalls.clone (w : World) (q : Ptr) : OwnCalls w (w.clone q) :=
  .of_calls (.clone w q) (calls_clone q)

/-- A `Drop` destroys a stream of the backend it calls: `Drop for DeviceHandle` its default
stream, `Drop for StreamHandle` the stream its own device's backend created. -/
theorem DropCall.ownStreamCall {c : Call} (hc : w.DropCall c) : w.OwnStreamCall c := by
  intro x hx
  cases hc with
  | device hp =>
      cases hx
      exact .inl (by simp [ownedStream, Call.device, hp])
  | stream hp =>
      cases hx
      exact .inr ⟨_, hp⟩
  | resource => simp at hx

theorem ownCalls_release (w : World) (q : Ptr) : OwnCalls w (w.release q) :=
  have hd := (w.release_spec q).1
  ⟨hd.extends, _, hd.calls, fun _ hc => (dropCall_of_mem_releaseCalls hc).ownStreamCall.mono hd.extends⟩

theorem ownCalls_releaseAll (w : World) (ps : List Ptr) : OwnCalls w (w.releaseAll ps) :=
  have ⟨_, hd, hnew⟩ := w.releaseAll_spec ps
  ⟨hd.extends, _, hd.calls, fun c hc => (hnew c hc).ownStreamCall.mono hd.extends⟩

/-- A call made through the temporary `Arc<DeviceHandle>` that `StreamHandle::device` returns. -/
theorem ownCalls_withDevice (w : World) (d : Nat) {c : Call} (hc : w.OwnStreamCall c) :
    OwnCalls w (((w.clone (.device d)).call c).release (.device d)) :=
  ((OwnCalls.clone w _).trans (.call (hc.mono (.clone w _)))).trans (ownCalls_release _ _)

/-! ## The API functions -/

theorem ownCalls_newDevice (w : World) : OwnCalls w (Device.new w).2 :=
  .of_calls (.newDevice w) rfl

theorem ownCalls_createBuffer (w : World) (d : Device) (elemSize count : Nat)
    (answer : Except BackendError Unit) : OwnCalls w (d.createBuffer elemSize count answer w).2 := by
  refine .of_stream?_eq_none (.createBuffer w d elemSize count answer)
    [.createBuffer d.inner (usizeMul elemSize count)] ?_ (by simp [Call.stream?])
  rcases answer with e | ⟨⟩ <;> rfl

theorem ownCalls_createBindlessArray (w : World) (d : Device) (slots : Nat)
    (answer : Except BackendError Unit) : OwnCalls w (d.createBindlessArray slots answer w).2 := by
  refine .of_stream?_eq_none (.createBindlessArray w d slots answer)
    [.createBindlessArray d.inner slots] ?_ (by simp [Call.stream?])
  rcases answer with e | ⟨⟩ <;> rfl

theorem ownCalls_createTexture (w : World) (d : Device) (formats : List PixelFormat)
    (format : PixelFormat) (dimension width height depth mips : Nat)
    (answer : Except BackendError Unit) :
    OwnCalls w (d.createTexture formats format dimension width height depth mips answer w).2 := by
  have hext := Extends.createTexture w d formats format dimension width height depth mips answer
  unfold Device.createTexture at hext ⊢
  split
  · next hf =>
      rw [if_pos hf] at hext
      refine .of_stream?_eq_none hext
        [.createTexture d.inner format dimension width height depth mips] ?_
        (by simp [Call.stream?])
      rcases answer with e | ⟨⟩ <;> rfl
  · exact .of_calls (.refl w) rfl

theorem ownCalls_defaultStream (w : World) (d : Device) : OwnCalls w (d.defaultStream w).2 :=
  .of_calls (.defaultStream w d) rfl

theorem ownCalls_createStream (w : World) (d : Device) (answer : Except BackendError Unit) :
    OwnCalls w (d.createStream answer w).2 := by
  refine .of_stream?_eq_none (.createStream w d answer) [.createStream d.inner] ?_
    (by simp [Call.stream?])
  rcases answer with e | ⟨⟩ <;> rfl

theorem ownCalls_cloneResources (w : World) (rs : List Nat) :
    OwnCalls w (rs.foldl (fun w r => w.clone (.resource r)) w) := by
  induction rs generalizing w with
  | nil => exact .of_calls (.refl w) rfl
  | cons r rs ih => exact (OwnCalls.clone w _).trans (ih _)

/-- `synchronize` names the stream of its `StreamHandle` on the backend of that handle's device. -/
theorem Valid.ownCalls_synchronize (hv : w.Valid held) {st : Stream}
    (hs : .stream st.handle ∈ held) (answer : Except BackendError Unit) :
    OwnCalls w (st.synchronize answer w).2 := by
  obtain ⟨sh, hsh⟩ := Option.isSome_iff_exists.mp
    (ArcHeap.get?_isSome_of_strong_pos (hv.balanced.strong_pos hs))
  have hstream : w.streamHandle st.handle = sh := by simp [streamHandle, hsh]
  simp only [Stream.synchronize, hstream]
  refine ownCalls_withDevice w sh.device fun x hx => ?_
  simp only [Call.stream?, Option.some.injEq] at hx
  exact hx ▸ hv.streamOf_handle hsh

/-- `commit` dispatches on the stream of its `StreamHandle`, on the backend of that handle's
device. -/
theorem Valid.ownCalls_commit {cb : CommandBuffer} (hv : w.Valid (cb.refs ++ held))
    (answer : Except BackendError Unit) : OwnCalls w (cb.commit answer w).2 := by
  obtain ⟨sh, hsh⟩ := Option.isSome_iff_exists.mp
    (ArcHeap.get?_isSome_of_strong_pos (hv.balanced.strong_pos (List.mem_cons_self _ _)))
  have hstream : w.streamHandle cb.stream = sh := by simp [streamHandle, hsh]
  simp only [CommandBuffer.commit, CommandBuffer.drop, hstream]
  refine (ownCalls_withDevice w sh.device fun x hx => ?_).trans (ownCalls_releaseAll _ _)
  simp only [Call.stream?, Option.some.injEq] at hx
  exact hx ▸ hv.streamOf_handle hsh

theorem Valid.ownCalls_submitDefaultStreamAndSync {cs : List Command}
    (hv : w.Valid (cs.flatMap Command.refs ++ held)) {d : Device} (hd : .device d.inner ∈ held)
    (dispatchAnswer syncAnswer : Except BackendError Unit) :
    OwnCalls w (LuisaCompute.submitDefaultStreamAndSync d cs dispatchAnswer syncAnswer w).2 := by
  rcases hds : d.defaultStream w with ⟨st, w₁⟩
  have h₁ : w₁.Valid (st.refs ++ (cs.flatMap Command.refs ++ held)) := by
    simpa [hds] using hv.defaultStream (List.mem_append_right _ hd)
  have ho₁ : OwnCalls w w₁ := by simpa [hds] using ownCalls_defaultStream w d
  have h₂ := h₁.clone (q := .stream st.handle) (h₁.balanced.strong_pos (by simp [Stream.refs]))
  have h₂' : (w₁.clone (.stream st.handle)).Valid
      (CommandBuffer.refs ⟨st.handle, cs⟩ ++ (st.refs ++ held)) :=
    h₂.perm (List.Perm.cons _ (List.perm_append_comm_assoc _ _ _))
  rcases hc : (⟨st.handle, cs⟩ : CommandBuffer).commit dispatchAnswer
    (w₁.clone (.stream st.handle)) with ⟨r, w₃⟩
  have h₃ : w₃.Valid (st.refs ++ held) := by simpa [hc] using h₂'.commit dispatchAnswer
  have ho₃ : OwnCalls w w₃ := by
    have := ho₁.trans ((OwnCalls.clone w₁ _).trans (h₂'.ownCalls_commit dispatchAnswer))
    rwa [hc] at this
  have hr : r = dispatchAnswer := by simpa [CommandBuffer.commit] using (congrArg Prod.fst hc).symm
  simp only [LuisaCompute.submitDefaultStreamAndSync, hds, Stream.commandBuffer,
    CommandBuffer.extend, List.nil_append, hc, hr]
  rcases dispatchAnswer with e | ⟨⟩
  · exact ho₃.trans (ownCalls_releaseAll _ st.refs)
  · dsimp only
    exact (ho₃.trans (h₃.ownCalls_synchronize (by simp [Stream.refs]) syncAnswer)).trans
      (ownCalls_releaseAll _ st.refs)

end World

end LuisaCompute
