import Mathlib.Algebra.Group.Nat.Basic
import LuisaCompute.Runtime.Model

/-! # The runtime API

`Device`, `Stream`, `CommandBuffer` and `submit_default_stream_and_sync` from `runtime.rs`. Each
function takes the world it runs in and the answers the backend gives to the calls it makes, and
returns its result with the new world. A temporary `Arc` that the source creates and drops, such as
the one `StreamHandle::device` returns, is cloned and released here as well.
-/

namespace LuisaCompute

/-- `std::mem::size_of::<T>() * count` on a 64-bit target in a release build, where `*` on
`usize` wraps. -/
def usizeMul (a b : Nat) : Nat := a * b % 2 ^ 64

/-- The message of the panic raised by `assert!` in `create_tex2d` and `create_tex3d`. -/
def unsupportedFormatPanic : String := "assertion failed: T::pixel_formats().contains(&format)"

namespace Device

variable (self : Device)

/-- Modelled from the spec: device bootstrap lies outside `runtime.rs` (the code that built a
`DeviceHandle` there is commented out); it pairs a backend with a fresh default stream. -/
def new (w : World) : Device × World :=
  (⟨(w.devices.alloc ⟨⟨w.nextHandle⟩⟩).1⟩,
    { w with devices := (w.devices.alloc ⟨⟨w.nextHandle⟩⟩).2, nextHandle := w.nextHandle + 1 })

/-- `Device::create_buffer::<T>`, with `elemSize = size_of::<T>()`. -/
def createBuffer (elemSize count : Nat) (answer : Except BackendError Unit) (w : World) :
    Except BackendError Buffer × World :=
  match w.create (.createBuffer self.inner (usizeMul elemSize count)) answer with
  | (.error e, w) => (.error e, w)
  | (.ok buffer, w) =>
      let w := (w.clone (.device self.inner)).clone (.device self.inner)
      let (handle, w) := w.allocResource ⟨.buffer, self, buffer⟩
      (.ok ⟨self, handle, count, elemSize⟩, w)

/-- `Device::create_bindless_array`. -/
def createBindlessArray (slots : Nat) (answer : Except BackendError Unit) (w : World) :
    Except BackendError BindlessArray × World :=
  match w.create (.createBindlessArray self.inner slots) answer with
  | (.error e, w) => (.error e, w)
  | (.ok array, w) =>
      let w := (w.clone (.device self.inner)).clone (.device self.inner)
      let (handle, w) := w.allocResource ⟨.bindlessArray, self, array⟩
      (.ok ⟨self, handle⟩, w)

/-- The body shared by `create_tex2d` and `create_tex3d`: the format check, the backend call and
the `Arc<TextureHandle>`. The outer `Except` is a panic, with its message. -/
def createTexture (formats : List PixelFormat) (format : PixelFormat)
    (dimension width height depth mips : Nat) (answer : Except BackendError Unit) (w : World) :
    Except String (Except BackendError Nat) × World :=
  if format ∈ formats then
    match w.create (.createTexture self.inner format dimension width height depth mips) answer with
    | (.error e, w) => (.ok (.error e), w)
    | (.ok texture, w) =>
        let (handle, w) := (w.clone (.device self.inner)).allocResource
          ⟨.texture format, self, texture⟩
        (.ok (.ok handle), w)
  else (.error unsupportedFormatPanic, w)

/-- The texture creation when the backend refuses the texture: its error after the call, or the
panic of the format check before any call. -/
theorem createTexture_error (formats : List PixelFormat) (format : PixelFormat)
    (dimension width height depth mips : Nat) (e : BackendError) (w : World) :
    self.createTexture formats format dimension width height depth mips (.error e) w =
      if format ∈ formats then
        (.ok (.error e), w.call (.createTexture self.inner format dimension width height depth mips))
      else (.error unsupportedFormatPanic, w) := by
  unfold createTexture
  split <;> rfl

/-- `Device::create_tex2d::<T>`, with `formats = T::pixel_formats()`. -/
def createTex2d (formats : List PixelFormat) (format : PixelFormat) (width height mips : Nat)
    (answer : Except BackendError Unit) (w : World) :
    Except String (Except BackendError Tex2D) × World :=
  let (r, w) := self.createTexture formats format 2 width height 1 mips answer w
  (r.map (·.map Tex2D.mk), w)

@[simp] theorem createTex2d_fst (formats : List PixelFormat) (format : PixelFormat)
    (width height mips : Nat) (answer : Except BackendError Unit) (w : World) :
    (self.createTex2d formats format width height mips answer w).1 =
      (self.createTexture formats format 2 width height 1 mips answer w).1.map (·.map Tex2D.mk) :=
  rfl

@[simp] theorem createTex2d_snd (formats : List PixelFormat) (format : PixelFormat)
    (width height mips : Nat) (answer : Except BackendError Unit) (w : World) :
    (self.createTex2d formats format width height mips answer w).2 =
      (self.createTexture formats format 2 width height 1 mips answer w).2 :=
  rfl

/-- `Device::create_tex3d::<T>`, with `formats = T::pixel_formats()`. -/
def createTex3d (formats : List PixelFormat) (format : PixelFormat) (width height depth mips : Nat)
    (answer : Except BackendError Unit) (w : World) :
    Except String (Except BackendError Tex3D) × World :=
  let (r, w) := self.createTexture formats format 3 width height depth mips answer w
  (r.map (·.map Tex3D.mk), w)

@[simp] theorem createTex3d_fst (formats : List PixelFormat) (format : PixelFormat)
    (width height depth mips : Nat) (answer : Except BackendError Unit) (w : World) :
    (self.createTex3d formats format width height depth mips answer w).1 =
      (self.createTexture formats format 3 width height depth mips answer w).1.map
        (·.map Tex3D.mk) :=
  rfl

@[simp] theorem createTex3d_snd (formats : List PixelFormat) (format : PixelFormat)
    (width height depth mips : Nat) (answer : Except BackendError Unit) (w : World) :
    (self.createTex3d formats format width height depth mips answer w).2 =
      (self.createTexture formats format 3 width height depth mips answer w).2 :=
  rfl

/-- `Device::default_stream`: no backend call. -/
def defaultStream (w : World) : Stream × World :=
  let w := (w.clone (.device self.inner)).clone (.device self.inner)
  let (handle, w) := w.allocStream (.default self.inner (w.defaultStreamOf self.inner))
  (⟨self, handle⟩, w)

/-- `Device::create_stream`. -/
def createStream (answer : Except BackendError Unit) (w : World) :
    Except BackendError Stream × World :=
  match w.create (.createStream self.inner) answer with
  | (.error e, w) => (.error e, w)
  | (.ok stream, w) =>
      let w := (w.clone (.device self.inner)).clone (.device self.inner)
      let (handle, w) := w.allocStream (.nonDefault self.inner ⟨stream⟩)
      (.ok ⟨self, handle⟩, w)

def drop (w : World) : World := w.releaseAll self.refs

end Device

/-- Modelled from the spec: the constructors of `Command` live in `resource.rs`, absent here;
each records an `api::Command` and, in its tracker, a clone of the handle `Arc` of every
resource the command touches. -/
def Command.new (inner : ApiCommand) (touched : List Nat) (w : World) : Command × World :=
  (⟨inner, touched⟩, touched.foldl (fun w r => w.clone (.resource r)) w)

namespace Stream

variable (self : Stream)

/-- `Stream::handle`. -/
def handleOf (w : World) : ApiStream := (w.streamHandle self.handle).handle

/-- `Stream::synchronize`. -/
def synchronize (answer : Except BackendError Unit) (w : World) : Except BackendError Unit × World :=
  let sh := w.streamHandle self.handle
  let w := (w.clone (.device sh.device)).call (.synchronizeStream sh.device sh.handle)
  (answer, w.release (.device sh.device))

/-- `Stream::command_buffer`. -/
def commandBuffer (w : World) : CommandBuffer × World :=
  (⟨self.handle, []⟩, w.clone (.stream self.handle))

def drop (w : World) : World := w.releaseAll self.refs

end Stream

namespace CommandBuffer

variable (self : CommandBuffer)

/-- `CommandBuffer::extend`. -/
def extend (commands : List Command) : CommandBuffer :=
  { self with commands := self.commands ++ commands }

/-- `CommandBuffer::push`. -/
def push (command : Command) : CommandBuffer :=
  { self with commands := self.commands ++ [command] }

def drop (w : World) : World := w.releaseAll self.refs

theorem push_eq_extend (command : Command) : self.push command = self.extend [command] := rfl

@[simp] theorem refs_extend (commands : List Command) :
    (self.extend commands).refs = self.refs ++ commands.flatMap Command.refs := by
  simp [extend, refs]

/-- `CommandBuffer::commit`: one dispatch of the recorded descriptors, then the temporary from
`StreamHandle::device` and the command buffer itself are dropped. -/
def commit (answer : Except BackendError Unit) (w : World) : Except BackendError Unit × World :=
  let commands := self.commands.map Command.inner
  let sh := w.streamHandle self.stream
  let w := (w.clone (.device sh.device)).call (.dispatch sh.device sh.handle commands)
  (answer, self.drop (w.release (.device sh.device)))

end CommandBuffer

/-- `submit_default_stream_and_sync`. -/
def submitDefaultStreamAndSync (device : Device) (commands : List Command)
    (dispatchAnswer syncAnswer : Except BackendError Unit) (w : World) :
    Except BackendError Unit × World :=
  let (defaultStream, w) := device.defaultStream w
  let (cmdBuffer, w) := defaultStream.commandBuffer w
  match (cmdBuffer.extend commands).commit dispatchAnswer w with
  | (.error e, w) => (.error e, defaultStream.drop w)
  | (.ok (), w) =>
      let (result, w) := defaultStream.synchronize syncAnswer w
      (result, defaultStream.drop w)

end LuisaCompute
