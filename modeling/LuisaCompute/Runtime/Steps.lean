import LuisaCompute.Runtime.Invariant
import LuisaCompute.Runtime.Program

/-! # Every API call and every program step keeps the invariant

Each function of `runtime.rs` is a sequence of the primitives of `Invariant`, so it keeps
`World.Valid`, with the references of the value it returns added to those the caller holds and
the references of the values it consumes removed. A program holds exactly the references of its
variables, so every reachable state is valid.
-/

namespace LuisaCompute

namespace World

variable {w : World} {held : List Ptr}

theorem Valid.perm (hv : w.Valid held) {held' : List Ptr} (h : held.Perm held') : w.Valid held' :=
  hv.congr fun q => h.count_eq q

@[simp] theorem defaultStreamOf_clone (q : Ptr) : (w.clone q).defaultStreamOf = w.defaultStreamOf := by
  funext d
  cases q <;> simp [clone, defaultStreamOf]

@[simp] theorem ownedStream_create (c : Call) (answer : Except BackendError Unit) :
    (w.create c answer).2.ownedStream = w.ownedStream := by
  rcases answer with e | ⟨⟩ <;> rfl

theorem ownedStream_device_of_pos {p : Nat} (hp : 0 < w.devices.strong p) :
    w.ownedStream (.device p) = some (w.defaultStreamOf p) := by
  obtain ⟨dh, hdh⟩ := Option.isSome_iff_exists.mp (ArcHeap.get?_isSome_of_strong_pos hp)
  simp [ownedStream, defaultStreamOf, hdh]

theorem ownerStrong_clone_pos {q : Ptr} (hq : 0 < w.strong q) {o : Owner}
    (ho : 0 < w.ownerStrong o) : 0 < (w.clone q).ownerStrong o :=
  Nat.pos_of_ne_zero fun h => by rw [ownerStrong_clone_eq_zero hq] at h; omega

theorem devices_strong_clone_pos {q : Ptr} (hq : 0 < w.strong q) {p : Nat}
    (hp : 0 < w.devices.strong p) : 0 < (w.clone q).devices.strong p :=
  ownerStrong_clone_pos (o := .device p) hq hp

/-- A call made through the temporary `Arc<DeviceHandle>` that `StreamHandle::device` returns. -/
theorem Valid.withDevice (hv : w.Valid held) {d : Nat} {c : Call}
    (hdev : 0 < w.devices.strong d) (hc : c.device = d) (hnd : ∀ d s, c ≠ .destroyStream d s)
    (hs : ∀ s, c.stream? = some s → ∃ o, w.ownedStream o = some s ∧ 0 < w.ownerStrong o) :
    (((w.clone (.device d)).call c).release (.device d)).Valid held := by
  subst hc
  have h₁ := hv.clone (q := .device c.device) hdev
  refine (h₁.call hnd (devices_strong_clone_pos (q := .device c.device) hdev hdev)
    fun s h => ?_).release
  obtain ⟨o, ho, hpos⟩ := hs s h
  exact ⟨o, by simpa using ho, ownerStrong_clone_pos (q := .device c.device) hdev hpos⟩

/-! ## Worlds only grow -/

/-- `w'` extends `w`: it has made every call `w` made, first, and keeps every allocation. -/
structure Extends (w w' : World) : Prop where
  calls : w.calls <+: w'.calls
  devices : ∀ p a, w.devices.get? p = some a → w'.devices.get? p = some a
  streams : ∀ p a, w.streams.get? p = some a → w'.streams.get? p = some a
  nextHandle : w.nextHandle ≤ w'.nextHandle

theorem Extends.refl (w : World) : w.Extends w :=
  ⟨List.prefix_refl _, fun _ _ => id, fun _ _ => id, Nat.le_refl _⟩

theorem Extends.trans {w₁ w₂ w₃ : World} (h₁ : w₁.Extends w₂) (h₂ : w₂.Extends w₃) :
    w₁.Extends w₃ :=
  ⟨h₁.calls.trans h₂.calls, fun p a h => h₂.devices p a (h₁.devices p a h),
    fun p a h => h₂.streams p a (h₁.streams p a h), Nat.le_trans h₁.nextHandle h₂.nextHandle⟩

theorem Extends.call (w : World) (c : Call) : w.Extends (w.call c) :=
  ⟨List.prefix_append _ _, fun _ _ => id, fun _ _ => id, Nat.le_refl _⟩

theorem Extends.clone (w : World) (q : Ptr) : w.Extends (w.clone q) := by
  refine ⟨by simp, fun p a h => ?_, fun p a h => by simpa using h, by simp⟩
  cases q <;> simpa [World.clone] using h

theorem Extends.create (w : World) (c : Call) (answer : Except BackendError Unit) :
    w.Extends (w.create c answer).2 := by
  rcases answer with e | ⟨⟩
  · exact .call w c
  · exact ⟨List.prefix_append _ _, fun _ _ => id, fun _ _ => id, Nat.le_succ _⟩

theorem Extends.allocStream (w : World) (sh : StreamHandle) : w.Extends (w.allocStream sh).2 := by
  refine ⟨List.prefix_refl _, fun _ _ => id, fun p a h => ?_, Nat.le_refl _⟩
  have hp : p ≠ w.streams.cells.length := fun hp => by simp [hp, ArcHeap.get?_length] at h
  simpa [World.allocStream, hp] using h

theorem Extends.allocResource (w : World) (r : ResourceHandle) :
    w.Extends (w.allocResource r).2 :=
  ⟨List.prefix_refl _, fun _ _ => id, fun _ _ => id, Nat.le_refl _⟩

theorem Dropped.extends {w' : World} {new : List Call} (h : Dropped w w' new) : w.Extends w' :=
  ⟨h.calls ▸ List.prefix_append _ _, fun p _ hp => (congrFun h.devices p).trans hp,
    fun p _ hp => (congrFun h.streams p).trans hp, h.nextHandle.ge⟩

theorem Extends.release (w : World) (q : Ptr) : w.Extends (w.release q) :=
  (w.release_spec q).1.extends

theorem Extends.releaseAll (w : World) (ps : List Ptr) : w.Extends (w.releaseAll ps) :=
  (w.releaseAll_spec ps).choose_spec.1.extends

/-- An owner keeps its stream. -/
theorem Extends.ownedStream {w' : World} (h : w.Extends w') {o : Owner} {s : ApiStream}
    (ho : w.ownedStream o = some s) : w'.ownedStream o = some s := by
  cases o with
  | device p =>
      simp only [World.ownedStream, Option.map_eq_some'] at ho ⊢
      obtain ⟨dh, hdh, rfl⟩ := ho
      exact ⟨dh, h.devices p dh hdh, rfl⟩
  | stream p =>
      simp only [World.ownedStream, Option.bind_eq_some] at ho ⊢
      obtain ⟨sh, hsh, hs⟩ := ho
      exact ⟨sh, h.streams p sh hsh, hs⟩

/-! ## Device -/

theorem ownedStream_newDevice (o : Owner) :
    (Device.new w).2.ownedStream o =
      if o = .device w.devices.cells.length then some ⟨w.nextHandle⟩ else w.ownedStream o := by
  cases o <;> simp [Device.new, ownedStream, ArcHeap.get?_alloc]
  split <;> simp_all

theorem ownerStrong_newDevice (o : Owner) :
    (Device.new w).2.ownerStrong o =
      if o = .device w.devices.cells.length then 1 else w.ownerStrong o := by
  cases o <;> simp [Device.new, ownerStrong]

theorem Valid.newDevice (hv : w.Valid held) :
    (Device.new w).2.Valid ((Device.new w).1.refs ++ held) where
  balanced x := by
    have hx := hv.balanced x
    have hlen := hv.balanced (.device w.devices.cells.length)
    simp only [strong, ArcHeap.strong_length] at hlen
    cases x with
    | device q =>
        simp only [Device.new, Device.refs, strong, ArcHeap.strong_alloc, cellRefs,
          List.singleton_append, List.count_append, List.count_cons, beq_iff_eq,
          Ptr.device.injEq] at hx hlen ⊢
        split
        · subst q; simp; omega
        · simp_all [Ne.symm ‹_›]
    | _ => simp_all [Device.new, Device.refs, strong, cellRefs, List.count_cons]
  fresh o s ho := by
    rw [ownedStream_newDevice] at ho
    split at ho
    · cases ho; simp [Device.new]
    · exact Nat.lt_succ_of_lt (hv.fresh o s ho)
  unique o o' s ho ho' := by
    rw [ownedStream_newDevice] at ho ho'
    split at ho <;> split at ho'
    · simp_all
    · cases ho; exact absurd (hv.fresh o' _ ho') (Nat.lt_irrefl _)
    · cases ho'; exact absurd (hv.fresh o _ ho) (Nat.lt_irrefl _)
    · exact hv.unique o o' s ho ho'
  defaults p d s h := by
    have hold := hv.defaults p d s h
    rw [ownedStream_newDevice, if_neg]
    · exact hold
    · rintro ⟨⟩
      simp [ownedStream, ArcHeap.get?_length] at hold
  retired s := by
    rw [show (Device.new w).2.calls = w.calls from rfl, hv.retired]
    refine exists_congr fun o => ?_
    rw [ownedStream_newDevice, ownerStrong_newDevice]
    split
    · subst o; simp [ownedStream, ArcHeap.get?_length]
    · rfl
  ordered pre c post hsplit s hs := by
    rw [ownedStream_newDevice] at hs
    split at hs
    · rcases hs with hs | hs
      · exact hv.ordered pre c post hsplit s (.inl hs)
      · cases hs
        intro hr
        exact hv.not_retired_of_fresh (Nat.le_refl _)
          (hsplit ▸ Retired.of_prefix hr)
    · exact hv.ordered pre c post hsplit s hs
  defaultLast pre d s post hsplit hs p s' hp := by
    rw [ownedStream_newDevice] at hs
    split at hs
    · cases hs
      exact absurd ⟨d, hsplit ▸ List.mem_append_right _ (List.mem_cons_self _ _)⟩
        (hv.not_retired_of_fresh (Nat.le_refl _))
    · exact hv.defaultLast pre d s post hsplit hs p s' hp

theorem Valid.createBuffer (hv : w.Valid held) {d : Device} (hd : .device d.inner ∈ held)
    (elemSize count : Nat) (answer : Except BackendError Unit) :
    (d.createBuffer elemSize count answer w).2.Valid
      ((d.createBuffer elemSize count answer w).1.toOption.elim [] Buffer.refs ++ held) := by
  have hc := hv.create (c := .createBuffer d.inner (usizeMul elemSize count)) rfl
    (hv.balanced.strong_pos hd) answer
  rcases answer with e | ⟨⟩
  · exact hc
  · have h₁ := hc.clone (q := .device d.inner) (hc.balanced.strong_pos hd)
    exact ((h₁.clone (h₁.balanced.strong_pos (List.mem_cons_self _ _))).allocResource
      (r := ⟨.buffer, d, w.nextHandle⟩)).perm (.swap _ _ _)

theorem Valid.createBindlessArray (hv : w.Valid held) {d : Device} (hd : .device d.inner ∈ held)
    (slots : Nat) (answer : Except BackendError Unit) :
    (d.createBindlessArray slots answer w).2.Valid
      ((d.createBindlessArray slots answer w).1.toOption.elim [] BindlessArray.refs ++ held) := by
  have hc := hv.create (c := .createBindlessArray d.inner slots) rfl
    (hv.balanced.strong_pos hd) answer
  rcases answer with e | ⟨⟩
  · exact hc
  · have h₁ := hc.clone (q := .device d.inner) (hc.balanced.strong_pos hd)
    exact ((h₁.clone (h₁.balanced.strong_pos (List.mem_cons_self _ _))).allocResource
      (r := ⟨.bindlessArray, d, w.nextHandle⟩)).perm (.swap _ _ _)

theorem Valid.createTexture (hv : w.Valid held) {d : Device} (hd : .device d.inner ∈ held)
    (formats : List PixelFormat) (format : PixelFormat) (dimension width height depth mips : Nat)
    (answer : Except BackendError Unit) :
    (d.createTexture formats format dimension width height depth mips answer w).2.Valid
      (((d.createTexture formats format dimension width height depth mips answer w).1.toOption.bind
        Except.toOption).elim [] (fun p => [.resource p]) ++ held) := by
  unfold Device.createTexture
  split
  · have hc := hv.create (c := .createTexture d.inner format dimension width height depth mips)
      rfl (hv.balanced.strong_pos hd) answer
    rcases answer with e | ⟨⟩
    · exact hc
    · exact (hc.clone (q := .device d.inner) (hc.balanced.strong_pos hd)).allocResource
        (r := ⟨.texture format, d, w.nextHandle⟩)
  · exact hv

theorem Valid.defaultStream (hv : w.Valid held) {d : Device} (hd : .device d.inner ∈ held) :
    (d.defaultStream w).2.Valid ((d.defaultStream w).1.refs ++ held) := by
  have hpos := hv.balanced.strong_pos hd
  have h₁ := hv.clone hpos
  have h₂ := h₁.clone (h₁.balanced.strong_pos (List.mem_cons_self _ _))
  refine (h₂.allocStream (.default d.inner
    (((w.clone (.device d.inner)).clone (.device d.inner)).defaultStreamOf d.inner)) ?_ ?_).perm
    (.swap _ _ _)
  · rintro _ _ ⟨⟩
    simpa using ownedStream_device_of_pos hpos
  · rintro _ ⟨⟩

theorem Valid.createStream (hv : w.Valid held) {d : Device} (hd : .device d.inner ∈ held)
    (answer : Except BackendError Unit) :
    (d.createStream answer w).2.Valid
      ((d.createStream answer w).1.toOption.elim [] Stream.refs ++ held) := by
  have hc := hv.create (c := .createStream d.inner) rfl (hv.balanced.strong_pos hd) answer
  rcases answer with e | ⟨⟨⟩⟩
  · exact hc
  · have h₁ := hc.clone (q := .device d.inner) (hc.balanced.strong_pos hd)
    refine (((h₁.clone (h₁.balanced.strong_pos (List.mem_cons_self _ _))).allocStream
      (.nonDefault d.inner ⟨w.nextHandle⟩) ?_ ?_)).perm (.swap _ _ _)
    · rintro _ _ ⟨⟩
    · rintro _ ⟨⟩
      refine ⟨by simp, fun o ho => ?_⟩
      exact absurd (hv.fresh o _ (by simpa using ho)) (Nat.lt_irrefl _)

/-! ## Stream and CommandBuffer -/

theorem Valid.synchronize (hv : w.Valid held) {st : Stream} (hs : .stream st.handle ∈ held)
    (answer : Except BackendError Unit) : (st.synchronize answer w).2.Valid held := by
  have hp := hv.balanced.strong_pos hs
  obtain ⟨sh, hsh⟩ := Option.isSome_iff_exists.mp (ArcHeap.get?_isSome_of_strong_pos hp)
  have hstream : w.streamHandle st.handle = sh := by simp [streamHandle, hsh]
  simp only [Stream.synchronize, hstream]
  exact hv.withDevice (c := .synchronizeStream sh.device sh.handle) (hv.device_pos hp hsh) rfl
    (by simp) fun s h => by
    simpa [Call.stream?] using h ▸ hv.handle_owned hp hsh

theorem Valid.commandBuffer (hv : w.Valid held) {st : Stream} (hs : .stream st.handle ∈ held) :
    (st.commandBuffer w).2.Valid ((st.commandBuffer w).1.refs ++ held) :=
  hv.clone (hv.balanced.strong_pos hs)

theorem Valid.cloneResources (hv : w.Valid held) {rs : List Nat}
    (hr : ∀ r ∈ rs, .resource r ∈ held) :
    (rs.foldl (fun w r => w.clone (.resource r)) w).Valid (rs.map .resource ++ held) := by
  induction rs generalizing w held with
  | nil => exact hv
  | cons r rs ih =>
      have h₁ := hv.clone (hv.balanced.strong_pos (hr r (List.mem_cons_self _ _)))
      exact (ih h₁ fun r' h' => List.mem_cons_of_mem _ (hr r' (List.mem_cons_of_mem _ h'))).perm
        List.perm_middle

theorem Valid.newCommand (hv : w.Valid held) (inner : ApiCommand) {touched : List Nat}
    (ht : ∀ r ∈ touched, .resource r ∈ held) :
    (Command.new inner touched w).2.Valid ((Command.new inner touched w).1.refs ++ held) :=
  hv.cloneResources ht

/-- `commit` consumes the command buffer: its references leave the held ones. -/
theorem Valid.commit {cb : CommandBuffer} (hv : w.Valid (cb.refs ++ held))
    (answer : Except BackendError Unit) : (cb.commit answer w).2.Valid held := by
  have hp : 0 < w.streams.strong cb.stream := hv.balanced.strong_pos (List.mem_cons_self _ _)
  obtain ⟨sh, hsh⟩ := Option.isSome_iff_exists.mp (ArcHeap.get?_isSome_of_strong_pos hp)
  have hstream : w.streamHandle cb.stream = sh := by simp [streamHandle, hsh]
  simp only [CommandBuffer.commit, hstream]
  exact (hv.withDevice (c := .dispatch sh.device sh.handle (cb.commands.map Command.inner))
    (hv.device_pos hp hsh) rfl (by simp) fun s h => by
    simpa [Call.stream?] using h ▸ hv.handle_owned hp hsh).releaseAll

theorem Valid.submitDefaultStreamAndSync {cs : List Command}
    (hv : w.Valid (cs.flatMap Command.refs ++ held)) {d : Device} (hd : .device d.inner ∈ held)
    (dispatchAnswer syncAnswer : Except BackendError Unit) :
    (submitDefaultStreamAndSync d cs dispatchAnswer syncAnswer w).2.Valid held := by
  rcases hds : d.defaultStream w with ⟨st, w₁⟩
  have h₁ : w₁.Valid (st.refs ++ (cs.flatMap Command.refs ++ held)) := by
    simpa [hds] using hv.defaultStream (List.mem_append_right _ hd)
  have h₂ := h₁.clone (q := .stream st.handle) (h₁.balanced.strong_pos (by simp [Stream.refs]))
  rcases hc : (⟨st.handle, cs⟩ : CommandBuffer).commit dispatchAnswer
    (w₁.clone (.stream st.handle)) with ⟨r, w₃⟩
  have h₃ : w₃.Valid (st.refs ++ held) := by
    have h₂' : (w₁.clone (.stream st.handle)).Valid
        (CommandBuffer.refs ⟨st.handle, cs⟩ ++ (st.refs ++ held)) :=
      h₂.perm (List.Perm.cons _ (List.perm_append_comm_assoc _ _ _))
    simpa [hc] using h₂'.commit dispatchAnswer
  have hr : r = dispatchAnswer := by simpa [CommandBuffer.commit] using (congrArg Prod.fst hc).symm
  simp only [LuisaCompute.submitDefaultStreamAndSync, hds, Stream.commandBuffer,
    CommandBuffer.extend, List.nil_append, hc, hr]
  rcases dispatchAnswer with e | ⟨⟩
  · dsimp only
    exact h₃.releaseAll
  · dsimp only
    exact (h₃.synchronize (by simp [Stream.refs]) syncAnswer).releaseAll

/-! ## The API functions only grow the world -/

theorem Extends.newDevice (w : World) : w.Extends (Device.new w).2 := by
  refine ⟨List.prefix_refl _, fun p a h => ?_, fun _ _ => id, Nat.le_succ _⟩
  have hp : p ≠ w.devices.cells.length := fun hp => by simp [hp, ArcHeap.get?_length] at h
  simpa [Device.new, hp] using h

theorem Extends.createBuffer (w : World) (d : Device) (elemSize count : Nat)
    (answer : Except BackendError Unit) : w.Extends (d.createBuffer elemSize count answer w).2 := by
  rcases answer with e | ⟨⟩
  · exact .create w (.createBuffer d.inner (usizeMul elemSize count)) (.error e)
  · exact (((Extends.create w _ (.ok ())).trans (.clone _ _)).trans (.clone _ _)).trans
      (.allocResource _ _)

theorem Extends.createBindlessArray (w : World) (d : Device) (slots : Nat)
    (answer : Except BackendError Unit) : w.Extends (d.createBindlessArray slots answer w).2 := by
  rcases answer with e | ⟨⟩
  · exact .create w (.createBindlessArray d.inner slots) (.error e)
  · exact (((Extends.create w _ (.ok ())).trans (.clone _ _)).trans (.clone _ _)).trans
      (.allocResource _ _)

theorem Extends.createTexture (w : World) (d : Device) (formats : List PixelFormat)
    (format : PixelFormat) (dimension width height depth mips : Nat)
    (answer : Except BackendError Unit) :
    w.Extends (d.createTexture formats format dimension width height depth mips answer w).2 := by
  unfold Device.createTexture
  split
  · rcases answer with e | ⟨⟩
    · exact .create w (.createTexture d.inner format dimension width height depth mips) (.error e)
    · exact ((Extends.create w _ (.ok ())).trans (.clone _ _)).trans (.allocResource _ _)
  · exact .refl w

theorem Extends.defaultStream (w : World) (d : Device) : w.Extends (d.defaultStream w).2 :=
  (((Extends.clone w _).trans (.clone _ _))).trans (.allocStream _ _)

theorem Extends.createStream (w : World) (d : Device) (answer : Except BackendError Unit) :
    w.Extends (d.createStream answer w).2 := by
  rcases answer with e | ⟨⟩
  · exact .create w (.createStream d.inner) (.error e)
  · exact (((Extends.create w _ (.ok ())).trans (.clone _ _)).trans (.clone _ _)).trans
      (.allocStream _ _)

/-- The temporary `Arc<DeviceHandle>` that `StreamHandle::device` returns. -/
theorem Extends.withDevice (w : World) (d : Nat) (c : Call) :
    w.Extends (((w.clone (.device d)).call c).release (.device d)) :=
  ((Extends.clone w _).trans (.call _ c)).trans (.release _ _)

theorem Extends.synchronize (w : World) (st : Stream) (answer : Except BackendError Unit) :
    w.Extends (st.synchronize answer w).2 := by
  simp only [Stream.synchronize]
  exact .withDevice _ _ _

theorem Extends.cloneResources (w : World) (rs : List Nat) :
    w.Extends (rs.foldl (fun w r => w.clone (.resource r)) w) := by
  induction rs generalizing w with
  | nil => exact .refl w
  | cons r rs ih => exact (Extends.clone w _).trans (ih _)

theorem Extends.commit (w : World) (cb : CommandBuffer) (answer : Except BackendError Unit) :
    w.Extends (cb.commit answer w).2 := by
  simp only [CommandBuffer.commit, CommandBuffer.drop]
  exact (Extends.withDevice _ _ _).trans (.releaseAll _ _)

theorem Extends.submitDefaultStreamAndSync (w : World) (d : Device) (cs : List Command)
    (dispatchAnswer syncAnswer : Except BackendError Unit) :
    w.Extends (submitDefaultStreamAndSync d cs dispatchAnswer syncAnswer w).2 := by
  rcases hds : d.defaultStream w with ⟨st, w₁⟩
  rcases hc : (⟨st.handle, cs⟩ : CommandBuffer).commit dispatchAnswer
    (w₁.clone (.stream st.handle)) with ⟨r, w₃⟩
  have h₃ : w.Extends w₃ := by
    simpa [hds, hc] using ((Extends.defaultStream w d).trans (.clone _ (.stream st.handle))).trans
      (.commit _ ⟨st.handle, cs⟩ dispatchAnswer)
  have hr : r = dispatchAnswer := by simpa [CommandBuffer.commit] using (congrArg Prod.fst hc).symm
  simp only [LuisaCompute.submitDefaultStreamAndSync, hds, Stream.commandBuffer,
    CommandBuffer.extend, List.nil_append, hc, hr]
  rcases dispatchAnswer with e | ⟨⟩
  · dsimp only
    exact h₃.trans (.releaseAll _ _)
  · dsimp only
    exact (h₃.trans (.synchronize _ _ _)).trans (.releaseAll _ _)

end World

end LuisaCompute
