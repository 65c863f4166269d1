import LuisaCompute.Runtime.Steps

/-! # Resource frees

The `Drop` of a resource handle frees the backend resource. The backends hand out fresh handles,
so no two resource handles hold the same one, and the free of a resource reaches the log exactly
when the last `Arc` of its handle is released: never while the handle is alive, never twice, and
never for a handle the runtime did not create.

`World.FreesValid` states this of a world. Every primitive keeps it (a clone as long as it does
not revive a dead resource handle, an allocation as long as its backend handle is new), and so
does every API function.
-/

namespace LuisaCompute

namespace ResourceHandle

/-- A free names the backend handle of its resource. -/
theorem handle_eq_of_free_eq {r r' : ResourceHandle} (h : r.free = r'.free) :
    r.handle = r'.handle := by
  unfold free at h
  split at h <;> split at h <;> simp_all

end ResourceHandle

namespace World

variable {w : World}

/-- The resource handles of a world and the frees in its log agree. -/
structure FreesValid (w : World) : Prop where
  /-- Every resource handle holds a backend handle that a backend has handed out. -/
  fresh : ∀ p r, w.resources.get? p = some r → r.handle < w.nextHandle
  /-- No two resource handles hold the same backend handle. -/
  unique : ∀ p p' r r', w.resources.get? p = some r → w.resources.get? p' = some r' →
    r.handle = r'.handle → p = p'
  /-- A resource has been freed exactly when its handle has lost its last reference. -/
  freed : ∀ p r, w.resources.get? p = some r → (r.free ∈ w.calls ↔ w.resources.strong p = 0)
  /-- Every free in the log is the free of a resource handle. -/
  known : ∀ c ∈ w.calls, c.isFree → ∃ p r, w.resources.get? p = some r ∧ r.free = c
  /-- No resource is freed twice. -/
  once : ∀ c, c.isFree → w.calls.count c ≤ 1

theorem FreesValid.empty : World.empty.FreesValid where
  fresh _ _ h := by simp [World.empty, ArcHeap.get?] at h
  unique _ _ _ _ h := by simp [World.empty, ArcHeap.get?] at h
  freed _ _ h := by simp [World.empty, ArcHeap.get?] at h
  known _ h := by simp [World.empty] at h
  once _ _ := by simp [World.empty]

/-- A world whose resource handles keep their values and whether they are alive, whose handle
counter has not gone back, and whose log has grown by calls other than frees. -/
theorem FreesValid.frame (hf : w.FreesValid) {w' : World} (new : List Call)
    (hget : ∀ p, w'.resources.get? p = w.resources.get? p)
    (hzero : ∀ p, w'.resources.strong p = 0 ↔ w.resources.strong p = 0)
    (hnext : w.nextHandle ≤ w'.nextHandle) (hcalls : w'.calls = w.calls ++ new)
    (hnew : ∀ c ∈ new, c.isFree = false) : w'.FreesValid where
  fresh p r h := Nat.lt_of_lt_of_le (hf.fresh p r ((hget p).symm.trans h)) hnext
  unique p p' r r' h h' := hf.unique p p' r r' ((hget p).symm.trans h) ((hget p').symm.trans h')
  freed p r h := by
    have hr : r.free ∉ new := fun hm => by simpa using hnew _ hm
    rw [hcalls, List.mem_append, or_iff_left hr, hzero, hf.freed p r ((hget p).symm.trans h)]
  known c hc hfree := by
    rcases List.mem_append.mp (hcalls ▸ hc) with hc | hc
    · obtain ⟨p, r, h, rfl⟩ := hf.known c hc hfree
      exact ⟨p, r, (hget p).trans h, rfl⟩
    · simp [hnew c hc] at hfree
  once c hc := by
    have h₀ : new.count c = 0 := List.count_eq_zero.mpr fun hm => by simp [hnew c hm] at hc
    rw [hcalls, List.count_append, h₀]
    exact hf.once c hc

theorem FreesValid.of_resources (hf : w.FreesValid) {w' : World}
    (hres : w'.resources = w.resources) (hnext : w.nextHandle ≤ w'.nextHandle)
    (hcalls : w'.calls = w.calls) : w'.FreesValid :=
  hf.frame [] (by simp [hres]) (by simp [hres]) hnext (by simp [hcalls]) (by simp)

/-! ## The primitives keep the invariant -/

theorem FreesValid.call (hf : w.FreesValid) {c : Call} (hc : c.isFree = false) :
    (w.call c).FreesValid :=
  hf.frame [c] (fun _ => rfl) (fun _ => Iff.rfl) (Nat.le_refl _) rfl (by simpa using hc)

theorem FreesValid.create (hf : w.FreesValid) {c : Call} (hc : c.isFree = false)
    (answer : Except BackendError Unit) : (w.create c answer).2.FreesValid := by
  rcases answer with e | ⟨⟩
  · exact hf.call hc
  · exact (hf.call hc).of_resources rfl (Nat.le_succ _) rfl

theorem FreesValid.cloneDevice (hf : w.FreesValid) (p : Nat) : (w.clone (.device p)).FreesValid :=
  hf.of_resources rfl (Nat.le_refl _) rfl

theorem FreesValid.cloneStream (hf : w.FreesValid) (p : Nat) : (w.clone (.stream p)).FreesValid :=
  hf.of_resources rfl (Nat.le_refl _) rfl

/-- `Arc::clone` of a live resource handle. -/
theorem FreesValid.cloneResource (hf : w.FreesValid) {p : Nat} (hp : 0 < w.resources.strong p) :
    (w.clone (.resource p)).FreesValid :=
  hf.frame [] (ArcHeap.get?_clone p) (ArcHeap.strong_clone_eq_zero hp) (Nat.le_refl _)
    (List.append_nil _).symm (by simp)

/-- `Arc::new` of a resource handle whose backend handle is above those of all the others. -/
theorem FreesValid.allocResource (hf : w.FreesValid) {r : ResourceHandle}
    (hlt : r.handle < w.nextHandle)
    (habove : ∀ p r', w.resources.get? p = some r' → r'.handle < r.handle) :
    (w.allocResource r).2.FreesValid where
  fresh p r' h := by
    simp only [World.allocResource, ArcHeap.get?_alloc] at h
    split at h
    · cases h; exact hlt
    · exact hf.fresh p r' h
  unique p p' r₁ r₂ h h' heq := by
    simp only [World.allocResource, ArcHeap.get?_alloc] at h h'
    split at h <;> split at h'
    · next hp hp' => exact hp.trans hp'.symm
    · cases h; exact absurd (habove _ _ h') (by omega)
    · cases h'; exact absurd (habove _ _ h) (by omega)
    · exact hf.unique p p' r₁ r₂ h h' heq
  freed p r' h := by
    simp only [World.allocResource, ArcHeap.get?_alloc, ArcHeap.strong_alloc] at h ⊢
    split at h
    · next hp =>
        cases h
        simp only [hp, if_true, Nat.one_ne_zero, iff_false]
        intro hm
        obtain ⟨p', r'', h'', heq⟩ := hf.known _ hm (ResourceHandle.free_isFree _)
        have := habove p' r'' h''
        rw [ResourceHandle.handle_eq_of_free_eq heq] at this
        omega
    · next hp =>
        rw [if_neg hp]
        exact hf.freed p r' h
  known c hc hfree := by
    obtain ⟨p, r', h, rfl⟩ := hf.known c hc hfree
    have hp : p ≠ w.resources.cells.length := fun hp => by simp [hp, ArcHeap.get?_length] at h
    exact ⟨p, r', by simp [World.allocResource, hp, h], rfl⟩
  once := hf.once

/-- A release frees a resource only when it drops the last reference to the resource's handle. -/
theorem isFree_of_mem_releaseCalls {q : Ptr} {c : Call} (hc : c ∈ w.releaseCalls q)
    (hfree : c.isFree) : ∃ p, q = .resource p ∧ w.resources.strong p = 1 := by
  have hdev {d : Nat} (hc : c ∈ w.releaseDeviceCalls d) : False := by
    rw [mem_releaseDeviceCalls hc] at hfree
    cases hfree
  cases q with
  | device p => exact (hdev hc).elim
  | stream p =>
      simp only [releaseCalls] at hc
      split at hc
      · exact (hdev hc).elim
      · rcases List.mem_cons.mp hc with rfl | hc
        · cases hfree
        · exact (hdev hc).elim
      · cases hc
  | resource p =>
      simp only [releaseCalls] at hc
      split at hc
      · next r hr => exact ⟨p, rfl, (ArcHeap.release_snd_eq_some hr).2⟩
      · cases hc

/-- Dropping the last reference to a resource handle: its free is logged for the first time, and
the other calls of the drop free nothing. -/
theorem FreesValid.lastRelease (hf : w.FreesValid) {w' : World} {p : Nat} {r : ResourceHandle}
    (hr : w.resources.get? p = some r) (h1 : w.resources.strong p = 1) {new : List Call}
    (hd : Dropped w w' (r.free :: new)) (hres : w'.resources = (w.resources.release p).1)
    (hnew : ∀ c ∈ new, c.isFree = false) : w'.FreesValid := by
  have hget (q : Nat) : w.resources.get? q = w'.resources.get? q := (congrFun hd.resources q).symm
  have hfirst : r.free ∉ w.calls := fun hm => by have := (hf.freed p r hr).mp hm; omega
  refine ⟨fun q r' h => hd.nextHandle ▸ hf.fresh q r' ((hget q).trans h),
    fun q q' r₁ r₂ h h' => hf.unique q q' r₁ r₂ ((hget q).trans h) ((hget q').trans h'),
    fun q r' h => ?_, fun c hc hfree => ?_, fun c hc => ?_⟩
  · have h' : w.resources.get? q = some r' := (hget q).trans h
    rw [hd.calls, hres, ArcHeap.strong_release, List.mem_append, List.mem_cons]
    by_cases hq : q = p
    · subst hq
      cases hr.symm.trans h'
      simp [h1]
    · have hne : r'.free ≠ r.free := fun he =>
        hq (hf.unique q p r' r h' hr (ResourceHandle.handle_eq_of_free_eq he))
      have hout : r'.free ∉ new := fun hm => absurd (hnew _ hm) (by simp)
      simp only [hne, hout, or_false, false_or, hq, if_false, Nat.sub_zero]
      exact hf.freed q r' h'
  · rcases List.mem_append.mp (hd.calls ▸ hc) with hc | hc
    · obtain ⟨q, r', h, rfl⟩ := hf.known c hc hfree
      exact ⟨q, r', (hget q).symm.trans h, rfl⟩
    · rcases List.mem_cons.mp hc with rfl | hc
      · exact ⟨p, r, (hget p).symm.trans hr, rfl⟩
      · simp [hnew c hc] at hfree
  · have h₀ : new.count c = 0 := List.count_eq_zero.mpr fun hm => by simp [hnew c hm] at hc
    rw [hd.calls, List.count_append, List.count_cons, h₀]
    by_cases hcr : c = r.free
    · subst hcr
      simp [List.count_eq_zero.mpr hfirst]
    · simpa [Ne.symm hcr] using hf.once c hc

/-- A release keeps the invariant: dropping the last reference to a resource handle frees the
resource, for the first time, and no other release frees anything. -/
theorem FreesValid.release (hf : w.FreesValid) (q : Ptr) : (w.release q).FreesValid := by
  obtain ⟨hd, hres⟩ := w.release_spec q
  by_cases hlast : ∃ p, q = .resource p ∧ w.resources.strong p = 1
  · obtain ⟨p, rfl, h1⟩ := hlast
    obtain ⟨r, hr⟩ :=
      Option.isSome_iff_exists.mp (ArcHeap.get?_isSome_of_strong_pos (h1 ▸ Nat.one_pos))
    have hcalls : w.releaseCalls (.resource p) = r.free :: w.releaseDeviceCalls r.device.inner := by
      simp [releaseCalls, ArcHeap.release_snd, h1, hr]
    exact hf.lastRelease hr h1 (hcalls ▸ hd) hres fun c hc => by rw [mem_releaseDeviceCalls hc]; rfl
  · refine hf.frame _ (congrFun hd.resources) (fun p => ?_) hd.nextHandle.ge hd.calls
      fun c hc => Bool.eq_false_iff.mpr fun hfree => hlast (isFree_of_mem_releaseCalls hc hfree)
    cases q <;> dsimp only at hres <;> rw [hres]
    rw [ArcHeap.strong_release]
    split
    · next hp =>
        subst hp
        have : w.resources.strong _ ≠ 1 := fun h => hlast ⟨_, rfl, h⟩
        omega
    · simp

theorem FreesValid.releaseAll (hf : w.FreesValid) (ps : List Ptr) :
    (w.releaseAll ps).FreesValid := by
  induction ps generalizing w with
  | nil => exact hf
  | cons q ps ih => exact ih (hf.release q)

/-! ## The API functions keep the invariant -/

theorem FreesValid.newDevice (hf : w.FreesValid) : (Device.new w).2.FreesValid :=
  hf.of_resources rfl (Nat.le_succ _) rfl

theorem FreesValid.createBuffer (hf : w.FreesValid) (d : Device) (elemSize count : Nat)
    (answer : Except BackendError Unit) :
    (d.createBuffer elemSize count answer w).2.FreesValid := by
  have hc := hf.create (c := .createBuffer d.inner (usizeMul elemSize count)) rfl answer
  rcases answer with e | ⟨⟩
  · exact hc
  · exact ((hc.cloneDevice _).cloneDevice _).allocResource (Nat.lt_succ_self _) hf.fresh

theorem FreesValid.createBindlessArray (hf : w.FreesValid) (d : Device) (slots : Nat)
    (answer : Except BackendError Unit) :
    (d.createBindlessArray slots answer w).2.FreesValid := by
  have hc := hf.create (c := .createBindlessArray d.inner slots) rfl answer
  rcases answer with e | ⟨⟩
  · exact hc
  · exact ((hc.cloneDevice _).cloneDevice _).allocResource (Nat.lt_succ_self _) hf.fresh

theorem FreesValid.createTexture (hf : w.FreesValid) (d : Device) (formats : List PixelFormat)
    (format : PixelFormat) (dimension width height depth mips : Nat)
    (answer : Except BackendError Unit) :
    (d.createTexture formats format dimension width height depth mips answer w).2.FreesValid := by
  unfold Device.createTexture
  split
  · have hc := hf.create (c := .createTexture d.inner format dimension width height depth mips)
      rfl answer
    rcases answer with e | ⟨⟩
    · exact hc
    · exact (hc.cloneDevice _).allocResource (Nat.lt_succ_self _) hf.fresh
  · exact hf

theorem FreesValid.defaultStream (hf : w.FreesValid) (d : Device) :
    (d.defaultStream w).2.FreesValid :=
  hf.of_resources rfl (Nat.le_refl _) rfl

theorem FreesValid.createStream (hf : w.FreesValid) (d : Device)
    (answer : Except BackendError Unit) : (d.createStream answer w).2.FreesValid := by
  have hc := hf.create (c := .createStream d.inner) rfl answer
  rcases answer with e | ⟨⟩
  · exact hc
  · exact hc.of_resources rfl (Nat.le_refl _) rfl

theorem FreesValid.synchronize (hf : w.FreesValid) (st : Stream)
    (answer : Except BackendError Unit) : (st.synchronize answer w).2.FreesValid := by
  simp only [Stream.synchronize]
  exact ((hf.cloneDevice _).call (by rfl)).release _

/-- The tracker of a new command clones the handles of live resources. -/
theorem FreesValid.cloneResources (hf : w.FreesValid) {rs : List Nat}
    (hr : ∀ r ∈ rs, 0 < w.resources.strong r) :
    (rs.foldl (fun w r => w.clone (.resource r)) w).FreesValid := by
  induction rs generalizing w with
  | nil => exact hf
  | cons r rs ih =>
      have hpos := hr r (List.mem_cons_self _ _)
      refine ih (hf.cloneResource hpos) fun r' h' => ?_
      show 0 < (w.resources.clone r).strong r'
      rw [ArcHeap.strong_clone hpos]
      exact Nat.lt_of_lt_of_le (hr r' (List.mem_cons_of_mem _ h')) (Nat.le_add_right _ _)

theorem FreesValid.commit (hf : w.FreesValid) (cb : CommandBuffer)
    (answer : Except BackendError Unit) : (cb.commit answer w).2.FreesValid := by
  simp only [CommandBuffer.commit, CommandBuffer.drop]
  exact (((hf.cloneDevice _).call (by rfl)).release _).releaseAll _

theorem FreesValid.submitDefaultStreamAndSync (hf : w.FreesValid) (d : Device)
    (cs : List Command) (dispatchAnswer syncAnswer : Except BackendError Unit) :
    (submitDefaultStreamAndSync d cs dispatchAnswer syncAnswer w).2.FreesValid := by
  rcases hds : d.defaultStream w with ⟨st, w₁⟩
  have h₁ : w₁.FreesValid := by
    have := hf.defaultStream d
    rwa [hds] at this
  rcases hc : (⟨st.handle, cs⟩ : CommandBuffer).commit dispatchAnswer
    (w₁.clone (.stream st.handle)) with ⟨r, w₃⟩
  have h₃ : w₃.FreesValid := by
    have := (h₁.cloneStream st.handle).commit ⟨st.handle, cs⟩ dispatchAnswer
    rwa [hc] at this
  have hr : r = dispatchAnswer := by simpa [CommandBuffer.commit] using (congrArg Prod.fst hc).symm
  simp only [LuisaCompute.submitDefaultStreamAndSync, hds, Stream.commandBuffer,
    CommandBuffer.extend, List.nil_append, hc, hr]
  rcases dispatchAnswer with e | ⟨⟩
  · exact h₃.releaseAll st.refs
  · dsimp only
    exact (h₃.synchronize st syncAnswer).releaseAll st.refs

end World

end LuisaCompute
