import LuisaCompute.Runtime.Program
import LuisaCompute.Runtime.Frees
import LuisaCompute.Runtime.Routing

/-! # Every reachable state is valid

A program state is valid when its world is valid for the references held by the caller's
variables. Every action keeps this and the agreement of the resource frees with the heap, and
only appends calls to the backends' log, each naming at most a stream of its own backend. So
every state a program reaches is valid, frees each resource once its handle is dead, and routes
every stream call to the stream's backend.
-/

namespace LuisaCompute

theorem mem_of_mapM {α β : Type} {f : α → Option β} :
    ∀ {xs : List α} {ys : List β}, xs.mapM f = some ys → ∀ y ∈ ys, ∃ x ∈ xs, f x = some y
  | [], ys, h, y, hy => by
      rw [List.mapM_nil] at h
      cases h
      cases hy
  | x :: xs, ys, h, y, hy => by
      simp only [List.mapM_cons, bind_pure_comp, Option.bind_eq_bind, Option.bind_eq_some,
        Option.map_eq_map, Option.map_eq_some'] at h
      obtain ⟨b, hb, bs, hbs, rfl⟩ := h
      rcases List.mem_cons.mp hy with rfl | hy
      · exact ⟨x, List.mem_cons_self _ _, hb⟩
      · obtain ⟨x', hx', hf⟩ := mem_of_mapM hbs y hy
        exact ⟨x', List.mem_cons_of_mem _ hx', hf⟩

namespace Value

theorem optRefs_map {α : Type} (f : α → Value) (o : Option α) :
    optRefs (o.map f) = o.elim [] fun a => (f a).refs := by
  cases o <;> rfl

/-- The references of a texture created by `create_tex2d` or `create_tex3d`. -/
theorem optRefs_texture {T : Type} (mk : Nat → T) (val : T → Value)
    (hval : ∀ p, (val (mk p)).refs = [.resource p]) (r : Except String (Except BackendError Nat)) :
    optRefs (((r.map (·.map mk)).toOption.bind Except.toOption).map val) =
      (r.toOption.bind Except.toOption).elim [] fun p => [.resource p] := by
  rcases r with _ | _ | p
  · rfl
  · rfl
  · exact hval p

theorem mem_refs_of_resourceHandle? {v : Value} {r : Nat} (h : v.resourceHandle? = some r) :
    .resource r ∈ v.refs := by
  cases v <;> simp_all [resourceHandle?, refs, Buffer.refs, Tex2D.refs, Tex3D.refs,
    BindlessArray.refs]

end Value

namespace State

variable {s s' : State}

/-- The invariant of a program state: its world is valid for the caller's references. -/
def Valid (s : State) : Prop := s.world.Valid s.held

@[simp] theorem after_world (w : World) (v : Option Value) : (s.after w v).world = w := rfl

@[simp] theorem held_after (w : World) (v : Option Value) :
    (s.after w v).held = s.held ++ Value.optRefs v := by
  cases v <;> simp [after, held, Value.optRefs]

theorem mem_held {i : Nat} {v : Value} (h : s.get? i = some v) {q : Ptr} (hq : q ∈ v.refs) :
    q ∈ s.held :=
  List.mem_flatMap.mpr ⟨some v, List.getElem?_mem (Option.join_eq_some.mp h), hq⟩

/-- Replacing the value of a variable trades its references for the new value's. -/
theorem count_held_set {i : Nat} {v : Value} (h : s.get? i = some v) (b : Option Value) (x : Ptr) :
    ((s.values.set i b).flatMap Value.optRefs).count x + v.refs.count x =
      s.held.count x + (Value.optRefs b).count x :=
  count_flatMap_set Value.optRefs x s.values i (Option.join_eq_some.mp h) b

theorem get?_set_ne {i j : Nat} (hij : i ≠ j) (b : Option Value) :
    ({ s with values := s.values.set j b } : State).get? i = s.get? i := by
  simp [get?, List.getElem?_set_ne (Ne.symm hij)]

theorem Valid.after {w : World} {v : Option Value} (h : w.Valid (Value.optRefs v ++ s.held)) :
    (s.after w v).Valid := by
  unfold Valid
  rw [held_after]
  exact h.perm List.perm_append_comm

/-- Emptying a variable moves its value's references out of the caller's. -/
theorem count_held_clear {i : Nat} {v : Value} (h : s.get? i = some v) (x : Ptr) :
    s.held.count x = (v.refs ++ (s.values.set i none).flatMap Value.optRefs).count x := by
  have := count_held_set h none x
  simp only [Value.optRefs, List.count_nil, Nat.add_zero] at this
  rw [List.count_append]
  omega

theorem device_mem_held {i : Nat} {d : Device} (h : s.get? i = some (.device d)) :
    .device d.inner ∈ s.held :=
  mem_held h (List.mem_singleton_self _)

theorem stream_mem_held {i : Nat} {st : Stream} (h : s.get? i = some (.stream st)) :
    .stream st.handle ∈ s.held :=
  mem_held h (List.mem_cons_of_mem _ (List.mem_singleton_self _))

/-! ## Moving commands out of variables -/

/-- What moves do: the world stays, the commands' references leave the caller's variables, and
every variable holding something other than a command keeps it. -/
def Moved (s : State) (cs : List Command) (s' : State) : Prop :=
  s'.world = s.world ∧ (∀ x, s.held.count x = (cs.flatMap Command.refs ++ s'.held).count x) ∧
    ∀ i v, (∀ c, v ≠ .command c) → s.get? i = some v → s'.get? i = some v

theorem take_spec {j : Nat} {c : Command} (h : s.take j = some (c, s')) : s.Moved [c] s' := by
  unfold take at h
  split at h
  · next c' hc =>
      cases h
      refine ⟨rfl, fun x => by simpa using count_held_clear hc x, fun i v hv hi => ?_⟩
      have hij : i ≠ j := fun hij => by cases hij; cases hc.symm.trans hi; exact hv c rfl
      rw [get?_set_ne hij]
      exact hi
  · cases h

theorem takeAll_spec {js : List Nat} {cs : List Command} (h : s.takeAll js = some (cs, s')) :
    s.Moved cs s' := by
  induction js generalizing s cs with
  | nil =>
      cases h
      exact ⟨rfl, fun x => by simp, fun _ _ _ => id⟩
  | cons j js ih =>
      simp only [takeAll, Option.bind_eq_bind, Option.bind_eq_some] at h
      obtain ⟨⟨c, s₁⟩, h₁, ⟨cs', s₂⟩, h₂, h⟩ := h
      cases h
      obtain ⟨hw₁, hcount₁, hget₁⟩ := take_spec h₁
      obtain ⟨hw₂, hcount₂, hget₂⟩ := ih h₂
      refine ⟨hw₂.trans hw₁, fun x => ?_, fun i v hv hi => hget₂ i v hv (hget₁ i v hv hi)⟩
      have h₃ := hcount₁ x
      have h₄ := hcount₂ x
      simp only [List.flatMap_cons, List.flatMap_nil, List.append_nil, List.count_append] at h₃ h₄ ⊢
      omega

/-- Recording moved commands into a command buffer gives their references to it. -/
theorem Valid.record {s₁ : State} {i : Nat} {cb : CommandBuffer} {cs : List Command}
    (hv : s.Valid) (hm : s.Moved cs s₁) (hi : s₁.get? i = some (.commandBuffer cb)) :
    ({ s₁ with values := s₁.values.set i (some (.commandBuffer (cb.extend cs))) } : State).Valid := by
  obtain ⟨hw, hcount, -⟩ := hm
  refine (hw ▸ hv : s₁.world.Valid s.held).congr fun x => ?_
  have := count_held_set hi (some (.commandBuffer (cb.extend cs))) x
  simp only [Value.optRefs, Value.refs, CommandBuffer.refs_extend, List.count_append] at this
  rw [hcount x, List.count_append]
  simp only [held] at this ⊢
  omega

/-! ## Every action keeps the invariant -/

/-- One action keeps the invariant and the agreement of resource frees, only grows the world,
and names in its calls only streams of the backends receiving them. -/
theorem Valid.step (hv : s.Valid) {a : Action} (h : s.step a = some s') :
    s'.Valid ∧ s.world.OwnCalls s'.world ∧ (s.world.FreesValid → s'.world.FreesValid) := by
  have hw : s.world.Valid s.held := hv
  cases a with
  | newDevice =>
      cases h
      exact ⟨.after hw.newDevice, World.ownCalls_newDevice _, fun hf => hf.newDevice⟩
  | cloneDevice i =>
      obtain ⟨d, hi, h⟩ := bind_device_eq_some.mp h
      cases h
      exact ⟨.after (hw.clone (hw.balanced.strong_pos (device_mem_held hi))), .clone _ (.device _),
        fun hf => hf.cloneDevice _⟩
  | drop i =>
      simp only [State.step, Option.bind_eq_bind, Option.bind_eq_some] at h
      obtain ⟨v, hi, h⟩ := h
      cases h
      exact ⟨(hw.congr (count_held_clear hi)).releaseAll, World.ownCalls_releaseAll _ _,
        fun hf => hf.releaseAll _⟩
  | createBuffer i elemSize count answer =>
      obtain ⟨d, hi, h⟩ := bind_device_eq_some.mp h
      cases h
      refine ⟨.after ?_, World.ownCalls_createBuffer _ _ _ _ _, fun hf => hf.createBuffer _ _ _ _⟩
      rw [Value.optRefs_map]
      exact hw.createBuffer (device_mem_held hi) _ _ _
  | createBindlessArray i slots answer =>
      obtain ⟨d, hi, h⟩ := bind_device_eq_some.mp h
      cases h
      refine ⟨.after ?_, World.ownCalls_createBindlessArray _ _ _ _,
        fun hf => hf.createBindlessArray _ _ _⟩
      rw [Value.optRefs_map]
      exact hw.createBindlessArray (device_mem_held hi) _ _
  | createTex2d i formats format width height mips answer =>
      obtain ⟨d, hi, h⟩ := bind_device_eq_some.mp h
      simp only [Option.some.injEq] at h
      subst h
      refine ⟨.after ?_, by simpa using World.ownCalls_createTexture _ _ _ _ _ _ _ _ _ _,
        fun hf => hf.createTexture _ _ _ _ _ _ _ _ _⟩
      rw [Device.createTex2d_fst, Value.optRefs_texture Tex2D.mk Value.tex2d fun _ => rfl,
        Device.createTex2d_snd]
      exact hw.createTexture (device_mem_held hi) _ _ _ _ _ _ _ _
  | createTex3d i formats format width height depth mips answer =>
      obtain ⟨d, hi, h⟩ := bind_device_eq_some.mp h
      simp only [Option.some.injEq] at h
      subst h
      refine ⟨.after ?_, by simpa using World.ownCalls_createTexture _ _ _ _ _ _ _ _ _ _,
        fun hf => hf.createTexture _ _ _ _ _ _ _ _ _⟩
      rw [Device.createTex3d_fst, Value.optRefs_texture Tex3D.mk Value.tex3d fun _ => rfl,
        Device.createTex3d_snd]
      exact hw.createTexture (device_mem_held hi) _ _ _ _ _ _ _ _
  | defaultStream i =>
      obtain ⟨d, hi, h⟩ := bind_device_eq_some.mp h
      cases h
      exact ⟨.after (hw.defaultStream (device_mem_held hi)), World.ownCalls_defaultStream _ _,
        fun hf => hf.defaultStream _⟩
  | createStream i answer =>
      obtain ⟨d, hi, h⟩ := bind_device_eq_some.mp h
      cases h
      refine ⟨.after ?_, World.ownCalls_createStream _ _ _, fun hf => hf.createStream _ _⟩
      rw [Value.optRefs_map]
      exact hw.createStream (device_mem_held hi) _
  | synchronize i answer =>
      obtain ⟨st, hi, h⟩ := bind_stream_eq_some.mp h
      cases h
      simp only [after_world]
      exact ⟨.after (hw.synchronize (stream_mem_held hi) answer),
        hw.ownCalls_synchronize (stream_mem_held hi) answer, fun hf => hf.synchronize _ answer⟩
  | commandBuffer i =>
      obtain ⟨st, hi, h⟩ := bind_stream_eq_some.mp h
      cases h
      exact ⟨.after (hw.commandBuffer (stream_mem_held hi)), .clone _ (.stream _),
        fun hf => hf.cloneStream _⟩
  | command inner touched =>
      simp only [State.step, Option.bind_eq_bind, Option.bind_eq_some] at h
      obtain ⟨handles, hh, h⟩ := h
      cases h
      have hheld (r : Nat) (hr : r ∈ handles) : .resource r ∈ s.held := by
        obtain ⟨i, -, hr⟩ := mem_of_mapM hh r hr
        obtain ⟨v, hi, hr⟩ := Option.bind_eq_some.mp hr
        exact mem_held hi (Value.mem_refs_of_resourceHandle? hr)
      exact ⟨.after (hw.newCommand inner hheld), World.ownCalls_cloneResources _ _,
        fun hf => hf.cloneResources fun r hr => hw.balanced.strong_pos (hheld r hr)⟩
  | push i j =>
      obtain ⟨cb, hi, h⟩ := bind_commandBuffer_eq_some.mp h
      simp only [Option.bind_eq_bind, Option.bind_eq_some] at h
      obtain ⟨⟨c, s₁⟩, h₁, h⟩ := h
      cases h
      have hm := take_spec h₁
      refine ⟨?_, hm.1 ▸ .refl _, fun hf => hm.1 ▸ hf⟩
      rw [CommandBuffer.push_eq_extend]
      exact hv.record hm (hm.2.2 i _ (fun _ => by simp) hi)
  | extend i js =>
      obtain ⟨cb, hi, h⟩ := bind_commandBuffer_eq_some.mp h
      simp only [Option.bind_eq_bind, Option.bind_eq_some] at h
      obtain ⟨⟨cs, s₁⟩, h₁, h⟩ := h
      cases h
      have hm := takeAll_spec h₁
      exact ⟨hv.record hm (hm.2.2 i _ (fun _ => by simp) hi), hm.1 ▸ .refl _, fun hf => hm.1 ▸ hf⟩
  | commit i answer =>
      obtain ⟨cb, hi, h⟩ := bind_commandBuffer_eq_some.mp h
      cases h
      dsimp only [State.Valid, State.held]
      exact ⟨(hw.congr (count_held_clear hi)).commit answer,
        (hw.congr (count_held_clear hi)).ownCalls_commit answer, fun hf => hf.commit _ _⟩
  | submitDefaultStreamAndSync i js dispatchAnswer syncAnswer =>
      obtain ⟨d, hi, h⟩ := bind_device_eq_some.mp h
      simp only [Option.bind_eq_bind, Option.bind_eq_some] at h
      obtain ⟨⟨cs, s₁⟩, h₁, h⟩ := h
      cases h
      obtain ⟨hw₁, hcount, hget⟩ := takeAll_spec h₁
      have hd := device_mem_held (hget i _ (fun _ => by simp) hi)
      refine ⟨.after ?_, ?_, fun hf => ?_⟩ <;> rw [hw₁]
      · exact (hw.congr hcount).submitDefaultStreamAndSync hd _ _
      · exact (hw.congr hcount).ownCalls_submitDefaultStreamAndSync hd _ _
      · exact hf.submitDefaultStreamAndSync _ _ _ _

theorem valid_init : init.Valid where
  balanced q := by cases q <;> rfl
  fresh o s h := by cases o <;> cases h
  unique o _ s h := by cases o <;> cases h
  defaults p d s h := by cases h
  retired s := by
    simp only [Retired, init, World.empty, List.not_mem_nil, exists_false, false_iff, not_exists]
    rintro (_ | _) ⟨⟨⟩, -⟩
  ordered pre c post h := by simp [init, World.empty] at h
  defaultLast pre d s post h := by simp [init, World.empty] at h

end State

/-- Every reachable state is valid. -/
theorem Reachable.valid {s : State} (h : Reachable s) : s.Valid := by
  induction h with
  | init => exact State.valid_init
  | step a _ hs ih => exact (ih.step hs).1

/-- A run from a reachable state ends in a reachable state. -/
theorem Reachable.run {s s' : State} (hs : Reachable s) :
    ∀ {as : List Action}, s.run as = some s' → Reachable s'
  | [], h => by cases h; exact hs
  | a :: as, h => by
      obtain ⟨s₁, h₁, h⟩ := Option.bind_eq_some.mp h
      exact (Reachable.step a hs h₁).run h

/-- In every reachable state the log frees a resource exactly when the last reference to its
handle has gone, at most once, and only for a handle the runtime created. -/
theorem Reachable.freesValid {s : State} (h : Reachable s) : s.world.FreesValid := by
  induction h with
  | init => exact World.FreesValid.empty
  | step a hr hs ih => exact (hr.valid.step hs).2.2 ih

/-- After a buffer is created and dropped, its free is in the log. -/
theorem freesValid_dropped_buffer :
    Reachable ⟨⟨⟨[⟨⟨⟨0⟩⟩, 1⟩]⟩, ⟨[]⟩, ⟨[⟨⟨.buffer, ⟨0⟩, 1⟩, 0⟩]⟩, 2,
        [.createBuffer 0 64, .destroyBuffer 0 1]⟩, [some (.device ⟨0⟩), none]⟩ ∧
      World.FreesValid ⟨⟨[⟨⟨⟨0⟩⟩, 1⟩]⟩, ⟨[]⟩, ⟨[⟨⟨.buffer, ⟨0⟩, 1⟩, 0⟩]⟩, 2,
        [.createBuffer 0 64, .destroyBuffer 0 1]⟩ :=
  have hs := Reachable.init.run
    (show State.init.run [.newDevice, .createBuffer 0 4 16 (.ok ()), .drop 1] =
      some ⟨⟨⟨[⟨⟨⟨0⟩⟩, 1⟩]⟩, ⟨[]⟩, ⟨[⟨⟨.buffer, ⟨0⟩, 1⟩, 0⟩]⟩, 2,
        [.createBuffer 0 64, .destroyBuffer 0 1]⟩, [some (.device ⟨0⟩), none]⟩ from rfl)
  ⟨hs, Reachable.freesValid hs⟩

/-- In every reachable state each call of the log that names a stream names one of the backend
that received it. -/
theorem Reachable.callsOwnStreams {s : State} (h : Reachable s) : s.world.CallsOwnStreams := by
  induction h with
  | init => exact fun c hc => absurd hc (List.not_mem_nil c)
  | step a hr hs ih => exact ih.extend (hr.valid.step hs).2.1

end LuisaCompute
