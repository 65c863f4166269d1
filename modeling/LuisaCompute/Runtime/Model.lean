import LuisaCompute.Arc

/-! # Runtime objects, backend calls and drop glue

The host side of `runtime.rs`. A `World` holds the `Arc` allocations behind `Device`
(`Arc<DeviceHandle>`), `Stream` and `CommandBuffer` (`Arc<StreamHandle>`) and the resource
types (`Arc<BufferHandle>`, `Arc<TextureHandle>`, `Arc<BindlessArrayHandle>`), and the list of
calls made so far to the backends. The backend itself is external: each call is logged, tagged
with the `DeviceHandle` whose backend receives it, and its answer is supplied by the caller of
the model. A backend that creates an object answers with a handle it has never handed out.

Dropping a value releases the strong references it holds in field declaration order, which is
the order of Rust's drop glue, and a release that drops the last reference runs the value's
`Drop` and then releases the references held by its fields.
-/

namespace LuisaCompute

/-- `api::Stream`, the backend's handle of a stream. -/
structure ApiStream where
  handle : Nat
deriving DecidableEq, Repr

/-- `api::Command`, an opaque backend command descriptor. -/
structure ApiCommand where
  id : Nat
deriving DecidableEq, Repr

/-- `api::PixelFormat`. -/
structure PixelFormat where
  code : Nat
deriving DecidableEq, Repr

/-- `backend::Error`. -/
structure BackendError where
  code : Nat
deriving DecidableEq, Repr

/-- A call to a backend, with the `DeviceHandle` whose backend receives it. The three resource
destructors are the free operations the spec gives `Backend`. -/
inductive Call
  | createBuffer (device byteSize : Nat)
  | createTexture (device : Nat) (format : PixelFormat) (dimension width height depth mips : Nat)
  | createBindlessArray (device slots : Nat)
  | createStream (device : Nat)
  | destroyStream (device : Nat) (stream : ApiStream)
  | dispatch (device : Nat) (stream : ApiStream) (commands : List ApiCommand)
  | synchronizeStream (device : Nat) (stream : ApiStream)
  | destroyBuffer (device handle : Nat)
  | destroyTexture (device handle : Nat)
  | destroyBindlessArray (device handle : Nat)
deriving DecidableEq, Repr

namespace Call

/-- The `DeviceHandle` whose backend receives the call. -/
def device : Call → Nat
  | createBuffer d _ | createTexture d _ _ _ _ _ _ | createBindlessArray d _ | createStream d
  | destroyStream d _ | dispatch d _ _ | synchronizeStream d _ | destroyBuffer d _
  | destroyTexture d _ | destroyBindlessArray d _ => d

/-- The stream a call names. -/
def stream? : Call → Option ApiStream
  | destroyStream _ s | dispatch _ s _ | synchronizeStream _ s => some s
  | _ => none

/-- The calls that release backend state: the stream and resource destructors. -/
def isRelease : Call → Bool
  | destroyStream _ _ | destroyBuffer _ _ | destroyTexture _ _ | destroyBindlessArray _ _ => true
  | _ => false

/-- The calls that free a resource: the destructors of buffers, textures and bindless arrays. -/
def isFree : Call → Bool
  | destroyBuffer _ _ | destroyTexture _ _ | destroyBindlessArray _ _ => true
  | _ => false

end Call

/-- A strong reference: a pointer into one of the three kinds of `Arc` allocation. -/
inductive Ptr
  | device (p : Nat)
  | stream (p : Nat)
  | resource (p : Nat)
deriving DecidableEq, Repr

/-- `Device { inner: Arc<DeviceHandle> }`. -/
structure Device where
  inner : Nat
deriving DecidableEq, Repr

/-- `DeviceHandle`. Its `backend` is the receiver of the calls tagged with its pointer. -/
structure DeviceHandle where
  defaultStream : ApiStream
deriving DecidableEq, Repr

/-- `StreamHandle`; the `Nat` is its `Arc<DeviceHandle>`. -/
inductive StreamHandle
  | default (device : Nat) (stream : ApiStream)
  | nonDefault (device : Nat) (handle : ApiStream)
deriving DecidableEq, Repr

namespace StreamHandle

/-- The `DeviceHandle` that `StreamHandle::device` clones. -/
def device : StreamHandle → Nat
  | default d _ => d
  | nonDefault d _ => d

/-- `StreamHandle::handle`. -/
def handle : StreamHandle → ApiStream
  | default _ s => s
  | nonDefault _ h => h

def refs (sh : StreamHandle) : List Ptr := [.device sh.device]

end StreamHandle

/-- Which of `BufferHandle`, `TextureHandle` and `BindlessArrayHandle` a resource handle is; a
texture also keeps its format. -/
inductive ResourceKind
  | buffer
  | texture (format : PixelFormat)
  | bindlessArray
deriving DecidableEq, Repr

/-- `BufferHandle`, `TextureHandle` and `BindlessArrayHandle`: a device and a backend handle. -/
structure ResourceHandle where
  kind : ResourceKind
  device : Device
  handle : Nat
deriving DecidableEq, Repr

namespace ResourceHandle

def refs (r : ResourceHandle) : List Ptr := [.device r.device.inner]

/-- Modelled from the spec: the `Drop` impls of the resource handles live in `resource.rs`,
absent here; each calls the backend's matching free operation once. -/
def free (r : ResourceHandle) : Call :=
  match r.kind with
  | .buffer => .destroyBuffer r.device.inner r.handle
  | .texture _ => .destroyTexture r.device.inner r.handle
  | .bindlessArray => .destroyBindlessArray r.device.inner r.handle

@[simp] theorem free_device (r : ResourceHandle) : r.free.device = r.device.inner := by
  unfold free; split <;> rfl

@[simp] theorem free_stream? (r : ResourceHandle) : r.free.stream? = none := by
  unfold free; split <;> rfl

@[simp] theorem free_isRelease (r : ResourceHandle) : r.free.isRelease = true := by
  unfold free; split <;> rfl

@[simp] theorem free_isFree (r : ResourceHandle) : r.free.isFree = true := by
  unfold free; split <;> rfl

theorem free_ne_destroyStream (r : ResourceHandle) (d : Nat) (s : ApiStream) :
    r.free ≠ .destroyStream d s := by
  unfold free; split <;> simp

end ResourceHandle

/-- `Stream { device, handle: Arc<StreamHandle> }`. -/
structure Stream where
  device : Device
  handle : Nat
deriving DecidableEq, Repr

/-- `Command { inner, marker, resource_tracker }`. The tracker holds one `Arc` of the handle of
every resource the command touches. -/
structure Command where
  inner : ApiCommand
  resourceTracker : List Nat
deriving DecidableEq, Repr

/-- `CommandBuffer { stream, marker, commands }`. -/
structure CommandBuffer where
  stream : Nat
  commands : List Command
deriving DecidableEq, Repr

/-- `Buffer<T> { device, handle, _marker, len }`; `elemSize` is `size_of::<T>()`. -/
structure Buffer where
  device : Device
  handle : Nat
  len : Nat
  elemSize : Nat
deriving DecidableEq, Repr

/-- `Tex2D<T> { handle, marker }`. -/
structure Tex2D where
  handle : Nat
deriving DecidableEq, Repr

/-- `Tex3D<T> { handle, marker }`. -/
structure Tex3D where
  handle : Nat
deriving DecidableEq, Repr

/-- `BindlessArray { device, handle }`. -/
structure BindlessArray where
  device : Device
  handle : Nat
deriving DecidableEq, Repr

/-! ## Strong references held by each value, in field declaration order -/

def Device.refs (d : Device) : List Ptr := [.device d.inner]

def Stream.refs (s : Stream) : List Ptr := [.device s.device.inner, .stream s.handle]

def Command.refs (c : Command) : List Ptr := c.resourceTracker.map .resource

def CommandBuffer.refs (cb : CommandBuffer) : List Ptr :=
  .stream cb.stream :: cb.commands.flatMap Command.refs

def Buffer.refs (b : Buffer) : List Ptr := [.device b.device.inner, .resource b.handle]

def Tex2D.refs (t : Tex2D) : List Ptr := [.resource t.handle]

def Tex3D.refs (t : Tex3D) : List Ptr := [.resource t.handle]

def BindlessArray.refs (b : BindlessArray) : List Ptr := [.device b.device.inner, .resource b.handle]

/-- The host heap and the backend calls made so far. `nextHandle` is the next handle the
backends hand out. -/
structure World where
  devices : ArcHeap DeviceHandle
  streams : ArcHeap StreamHandle
  resources : ArcHeap ResourceHandle
  nextHandle : Nat
  calls : List Call
deriving DecidableEq, Repr

namespace World

variable (w : World)

/-- No allocation and no call yet. -/
def empty : World := ⟨⟨[]⟩, ⟨[]⟩, ⟨[]⟩, 0, []⟩

def strong : Ptr → Nat
  | .device p => w.devices.strong p
  | .stream p => w.streams.strong p
  | .resource p => w.resources.strong p

/-- The strong references held by the live stream and resource handles. -/
def cellRefs : List Ptr :=
  w.streams.liveRefs StreamHandle.refs ++ w.resources.liveRefs ResourceHandle.refs

/-- The default stream of a device (`DeviceHandle::default_stream`). -/
def defaultStreamOf (d : Nat) : ApiStream :=
  ((w.devices.get? d).map DeviceHandle.defaultStream).getD ⟨0⟩

/-- The `StreamHandle` behind an `Arc<StreamHandle>`. -/
def streamHandle (p : Nat) : StreamHandle := (w.streams.get? p).getD (.default 0 ⟨0⟩)

def call (c : Call) : World := { w with calls := w.calls ++ [c] }

/-- A backend call that creates an object: on success the backend answers with a fresh handle. -/
def create (c : Call) : Except BackendError Unit → Except BackendError Nat × World
  | .ok () => (.ok w.nextHandle, { w.call c with nextHandle := w.nextHandle + 1 })
  | .error e => (.error e, w.call c)

/-- `Arc::clone`. -/
def clone : Ptr → World
  | .device p => { w with devices := w.devices.clone p }
  | .stream p => { w with streams := w.streams.clone p }
  | .resource p => { w with resources := w.resources.clone p }

def allocStream (sh : StreamHandle) : Nat × World :=
  ((w.streams.alloc sh).1, { w with streams := (w.streams.alloc sh).2 })

def allocResource (r : ResourceHandle) : Nat × World :=
  ((w.resources.alloc r).1, { w with resources := (w.resources.alloc r).2 })

/-- Dropping an `Arc<DeviceHandle>`; the last one runs `Drop for DeviceHandle`. -/
def releaseDevice (p : Nat) : World :=
  let w' := { w with devices := (w.devices.release p).1 }
  match (w.devices.release p).2 with
  | some handle => w'.call (.destroyStream p handle.defaultStream)
  | none => w'

end World

/-- `Drop for StreamHandle`, then the drop of its `Arc<DeviceHandle>`. -/
def StreamHandle.drop : StreamHandle → World → World
  | .default device _, w => w.releaseDevice device
  | .nonDefault device handle, w => (w.call (.destroyStream device handle)).releaseDevice device

/-- The resource handle's `Drop`, then the drop of its `device`. -/
def ResourceHandle.drop (r : ResourceHandle) (w : World) : World :=
  (w.call r.free).releaseDevice r.device.inner

namespace World

variable (w : World)

def releaseStream (p : Nat) : World :=
  let w' := { w with streams := (w.streams.release p).1 }
  match (w.streams.release p).2 with
  | some sh => sh.drop w'
  | none => w'

def releaseResource (p : Nat) : World :=
  let w' := { w with resources := (w.resources.release p).1 }
  match (w.resources.release p).2 with
  | some r => r.drop w'
  | none => w'

/-- Dropping one strong reference. -/
def release : Ptr → World
  | .device p => w.releaseDevice p
  | .stream p => w.releaseStream p
  | .resource p => w.releaseResource p

/-- Dropping a sequence of strong references, first to last. -/
def releaseAll (ps : List Ptr) : World := ps.foldl release w

/-! ## Field lemmas -/

@[simp] theorem call_calls (c : Call) : (w.call c).calls = w.calls ++ [c] := rfl
@[simp] theorem call_devices (c : Call) : (w.call c).devices = w.devices := rfl
@[simp] theorem call_streams (c : Call) : (w.call c).streams = w.streams := rfl
@[simp] theorem call_resources (c : Call) : (w.call c).resources = w.resources := rfl
@[simp] theorem call_nextHandle (c : Call) : (w.call c).nextHandle = w.nextHandle := rfl

@[simp] theorem releaseAll_nil : w.releaseAll [] = w := rfl

@[simp] theorem releaseAll_cons (p : Ptr) (ps : List Ptr) :
    w.releaseAll (p :: ps) = (w.release p).releaseAll ps := rfl

theorem releaseAll_append (ps qs : List Ptr) :
    w.releaseAll (ps ++ qs) = (w.releaseAll ps).releaseAll qs := by
  simp [releaseAll, List.foldl_append]

@[simp] theorem releaseDevice_resources (p : Nat) : (w.releaseDevice p).resources = w.resources := by
  unfold releaseDevice; split <;> rfl

/-! ## What a release does

A release changes no value behind a pointer and hands out no handle: it lowers one count and, on
the last reference, makes the calls of the value's `Drop` and of the release of its device, which
`releaseCalls` lists. `release_spec` states this once; every later fact about releases is read
off it. -/

/-- `w'` has the value of `w` behind every pointer, and no allocation more. -/
structure SameCells (w w' : World) : Prop where
  devices : w'.devices.get? = w.devices.get?
  streams : w'.streams.get? = w.streams.get?
  resources : w'.resources.get? = w.resources.get?

variable {w}

theorem SameCells.trans {w' w'' : World} (h₁ : SameCells w w') (h₂ : SameCells w' w'') :
    SameCells w w'' :=
  ⟨h₂.devices.trans h₁.devices, h₂.streams.trans h₁.streams, h₂.resources.trans h₁.resources⟩

/-- `w'` is `w` after drops that made the calls `new`: every allocation keeps its value, the
handle counter stays, and the log grows by `new`. -/
structure Dropped (w w' : World) (new : List Call) extends SameCells w w' : Prop where
  nextHandle : w'.nextHandle = w.nextHandle
  calls : w'.calls = w.calls ++ new

theorem Dropped.refl (w : World) : Dropped w w [] := ⟨⟨rfl, rfl, rfl⟩, rfl, (List.append_nil _).symm⟩

theorem Dropped.trans {w' w'' : World} {new new' : List Call} (h₁ : Dropped w w' new)
    (h₂ : Dropped w' w'' new') : Dropped w w'' (new ++ new') :=
  ⟨h₁.toSameCells.trans h₂.toSameCells, h₂.nextHandle.trans h₁.nextHandle,
    by rw [h₂.calls, h₁.calls, List.append_assoc]⟩

theorem Dropped.call (w : World) (c : Call) : Dropped w (w.call c) [c] :=
  ⟨⟨rfl, rfl, rfl⟩, rfl, rfl⟩

variable (w)

/-- The call made by dropping the `Arc<DeviceHandle>` `p`: the `destroy_stream` of
`Drop for DeviceHandle`, when `p` is its last reference. -/
def releaseDeviceCalls (p : Nat) : List Call :=
  match (w.devices.release p).2 with
  | some handle => [.destroyStream p handle.defaultStream]
  | none => []

/-- The calls made by dropping the reference `q`: none unless it is the last one, and then those
of the value's `Drop` followed by those of the drop of the `Arc<DeviceHandle>` it holds. -/
def releaseCalls : Ptr → List Call
  | .device p => w.releaseDeviceCalls p
  | .stream p =>
      match (w.streams.release p).2 with
      | some (.default device _) => w.releaseDeviceCalls device
      | some (.nonDefault device handle) =>
          .destroyStream device handle :: w.releaseDeviceCalls device
      | none => []
  | .resource p =>
      match (w.resources.release p).2 with
      | some r => r.free :: w.releaseDeviceCalls r.device.inner
      | none => []

theorem releaseDeviceCalls_eq (p : Nat) :
    w.releaseDeviceCalls p =
      if w.devices.strong p = 1 then [.destroyStream p (w.defaultStreamOf p)] else [] := by
  unfold releaseDeviceCalls
  rw [ArcHeap.release_snd]
  split_ifs with h1
  · obtain ⟨dh, hdh⟩ :=
      Option.isSome_iff_exists.mp (ArcHeap.get?_isSome_of_strong_pos (h1 ▸ Nat.one_pos))
    simp [hdh, defaultStreamOf]
  · rfl

theorem dropped_releaseDevice (p : Nat) :
    Dropped w (w.releaseDevice p) (w.releaseDeviceCalls p) := by
  have h : Dropped w { w with devices := (w.devices.release p).1 } [] :=
    ⟨⟨funext (ArcHeap.get?_release p), rfl, rfl⟩, rfl, (List.append_nil _).symm⟩
  unfold releaseDevice releaseDeviceCalls
  cases (w.devices.release p).2 with
  | none => exact h
  | some dh => exact h.trans (.call _ _)

/-- Dropping one strong reference: the world after it is `Dropped` with the calls
`releaseCalls q`, and only a resource reference changes the resource heap, by its own release. -/
theorem release_spec (q : Ptr) :
    Dropped w (w.release q) (w.releaseCalls q) ∧
      (w.release q).resources =
        match q with
        | .resource p => (w.resources.release p).1
        | _ => w.resources := by
  cases q with
  | device p => exact ⟨w.dropped_releaseDevice p, w.releaseDevice_resources p⟩
  | stream p =>
      have h : Dropped w { w with streams := (w.streams.release p).1 } [] :=
        ⟨⟨rfl, funext (ArcHeap.get?_release p), rfl⟩, rfl, (List.append_nil _).symm⟩
      show Dropped w (w.releaseStream p) _ ∧ (w.releaseStream p).resources = w.resources
      unfold releaseStream
      simp only [releaseCalls]
      cases (w.streams.release p).2 with
      | none => exact ⟨h, rfl⟩
      | some sh =>
          cases sh with
          | default d _ => exact ⟨h.trans (dropped_releaseDevice _ d), releaseDevice_resources _ d⟩
          | nonDefault d x =>
              exact ⟨(h.trans (.call _ _)).trans (dropped_releaseDevice _ d),
                releaseDevice_resources _ d⟩
  | resource p =>
      have h : Dropped w { w with resources := (w.resources.release p).1 } [] :=
        ⟨⟨rfl, rfl, funext (ArcHeap.get?_release p)⟩, rfl, (List.append_nil _).symm⟩
      show Dropped w (w.releaseResource p) _ ∧ (w.releaseResource p).resources = _
      unfold releaseResource
      simp only [releaseCalls]
      cases (w.resources.release p).2 with
      | none => exact ⟨h, rfl⟩
      | some r =>
          exact ⟨(h.trans (.call _ _)).trans (dropped_releaseDevice _ _),
            releaseDevice_resources _ _⟩

/-- A call of the `Drop` of an allocation of `w`: the `destroy_stream` of `Drop for DeviceHandle`
or of `Drop for StreamHandle`, or the free of a resource handle. -/
inductive DropCall (w : World) : Call → Prop
  | device {p : Nat} {dh : DeviceHandle} : w.devices.get? p = some dh →
      DropCall w (.destroyStream p dh.defaultStream)
  | stream {p d : Nat} {x : ApiStream} : w.streams.get? p = some (.nonDefault d x) →
      DropCall w (.destroyStream d x)
  | resource {p : Nat} {r : ResourceHandle} : w.resources.get? p = some r → DropCall w r.free

variable {w}

theorem DropCall.isRelease {c : Call} (hc : w.DropCall c) : c.isRelease := by
  cases hc with
  | resource => exact ResourceHandle.free_isRelease _
  | _ => rfl

theorem DropCall.of_sameCells {w' : World} (h : SameCells w w') {c : Call}
    (hc : w'.DropCall c) : w.DropCall c := by
  cases hc with
  | device hp => exact .device (h.devices ▸ hp)
  | stream hp => exact .stream (h.streams ▸ hp)
  | resource hp => exact .resource (h.resources ▸ hp)

theorem mem_releaseDeviceCalls {p : Nat} {c : Call} (hc : c ∈ w.releaseDeviceCalls p) :
    c = .destroyStream p (w.defaultStreamOf p) := by
  rw [releaseDeviceCalls_eq] at hc
  split_ifs at hc
  · exact List.mem_singleton.mp hc
  · cases hc

theorem SameCells.defaultStreamOf {w' : World} (h : SameCells w w') :
    w'.defaultStreamOf = w.defaultStreamOf := by
  funext d
  simp only [World.defaultStreamOf, h.devices]

theorem SameCells.streamHandle {w' : World} (h : SameCells w w') :
    w'.streamHandle = w.streamHandle := by
  funext p
  simp only [World.streamHandle, h.streams]

theorem dropCall_of_mem_releaseDeviceCalls {p : Nat} {c : Call}
    (hc : c ∈ w.releaseDeviceCalls p) : w.DropCall c := by
  unfold releaseDeviceCalls at hc
  split at hc
  · next dh hdh =>
      rw [List.mem_singleton.mp hc]
      exact .device (ArcHeap.release_snd_eq_some hdh).1
  · cases hc

theorem dropCall_of_mem_releaseCalls {q : Ptr} {c : Call} (hc : c ∈ w.releaseCalls q) :
    w.DropCall c := by
  cases q with
  | device p => exact dropCall_of_mem_releaseDeviceCalls hc
  | stream p =>
      simp only [releaseCalls] at hc
      split at hc
      · exact dropCall_of_mem_releaseDeviceCalls hc
      · next d x hsh =>
          rcases List.mem_cons.mp hc with rfl | hc
          · exact .stream (ArcHeap.release_snd_eq_some hsh).1
          · exact dropCall_of_mem_releaseDeviceCalls hc
      · cases hc
  | resource p =>
      simp only [releaseCalls] at hc
      split at hc
      · next r hr =>
          rcases List.mem_cons.mp hc with rfl | hc
          · exact .resource (ArcHeap.release_snd_eq_some hr).1
          · exact dropCall_of_mem_releaseDeviceCalls hc
      · cases hc

variable (w)

/-- Dropping references one after another: every call made is a `Drop` call of an allocation of
the world the drops start in. -/
theorem releaseAll_spec (ps : List Ptr) :
    ∃ new, Dropped w (w.releaseAll ps) new ∧ ∀ c ∈ new, w.DropCall c := by
  induction ps generalizing w with
  | nil => exact ⟨[], .refl w, by simp⟩
  | cons q ps ih =>
      obtain ⟨new, hd, hnew⟩ := ih (w.release q)
      have h₁ := (w.release_spec q).1
      refine ⟨w.releaseCalls q ++ new, h₁.trans hd, fun c hc => ?_⟩
      rcases List.mem_append.mp hc with hc | hc
      · exact dropCall_of_mem_releaseCalls hc
      · exact (hnew c hc).of_sameCells h₁.toSameCells

end World

end LuisaCompute
