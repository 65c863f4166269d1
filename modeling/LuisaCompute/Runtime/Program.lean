import LuisaCompute.Runtime.Api

/-! # Programs using the runtime

A caller of the runtime API holds values in numbered variables. A step is one API call on some
of them, or the drop of one; a value moved into a call (a `Command` pushed into a
`CommandBuffer`, a `CommandBuffer` committed) leaves its variable empty. Any interleaving of
steps is a run, so a property of every reachable state holds for every order in which a program
clones, moves and drops its devices, streams, command buffers and resources. A create that the
backend refuses leaves the variables and every allocation as they were.
-/

namespace LuisaCompute

/-- A value a caller can hold. -/
inductive Value
  | device (d : Device)
  | stream (s : Stream)
  | commandBuffer (cb : CommandBuffer)
  | command (c : Command)
  | buffer (b : Buffer)
  | tex2d (t : Tex2D)
  | tex3d (t : Tex3D)
  | bindlessArray (b : BindlessArray)
deriving DecidableEq, Repr

namespace Value

def refs : Value → List Ptr
  | device d => d.refs
  | stream s => s.refs
  | commandBuffer cb => cb.refs
  | command c => c.refs
  | buffer b => b.refs
  | tex2d t => t.refs
  | tex3d t => t.refs
  | bindlessArray b => b.refs

/-- The references held by a variable. -/
def optRefs : Option Value → List Ptr
  | none => []
  | some v => v.refs

/-- The drop glue of a value. -/
def drop (v : Value) (w : World) : World := w.releaseAll v.refs

/-- The `Arc` of the resource handle behind a resource value. -/
def resourceHandle? : Value → Option Nat
  | buffer b => some b.handle
  | tex2d t => some t.handle
  | tex3d t => some t.handle
  | bindlessArray b => some b.handle
  | _ => none

end Value

/-- A caller's actions. Each names the variables it uses and carries the backend's answers. -/
inductive Action
  | newDevice
  | cloneDevice (device : Nat)
  | drop (var : Nat)
  | createBuffer (device elemSize count : Nat) (answer : Except BackendError Unit)
  | createBindlessArray (device slots : Nat) (answer : Except BackendError Unit)
  | createTex2d (device : Nat) (formats : List PixelFormat) (format : PixelFormat)
      (width height mips : Nat) (answer : Except BackendError Unit)
  | createTex3d (device : Nat) (formats : List PixelFormat) (format : PixelFormat)
      (width height depth mips : Nat) (answer : Except BackendError Unit)
  | defaultStream (device : Nat)
  | createStream (device : Nat) (answer : Except BackendError Unit)
  | synchronize (stream : Nat) (answer : Except BackendError Unit)
  | commandBuffer (stream : Nat)
  | command (inner : ApiCommand) (touched : List Nat)
  | push (cmdBuffer command : Nat)
  | extend (cmdBuffer : Nat) (commands : List Nat)
  | commit (cmdBuffer : Nat) (answer : Except BackendError Unit)
  | submitDefaultStreamAndSync (device : Nat) (commands : List Nat)
      (dispatchAnswer syncAnswer : Except BackendError Unit)

/-- The world and the caller's variables; `none` is an empty variable. -/
structure State where
  world : World
  values : List (Option Value)
deriving DecidableEq, Repr

namespace State

variable (s : State)

def init : State := ⟨World.empty, []⟩

def get? (i : Nat) : Option Value := s.values[i]?.join

/-- The strong references held by the caller's values. -/
def held : List Ptr := s.values.flatMap Value.optRefs

/-- The state after a call that ran in `w` and returned `v`. -/
def after (w : World) (v : Option Value) : State := ⟨w, s.values ++ v.toList.map some⟩

/-- Moving the command out of a variable. -/
def take (j : Nat) : Option (Command × State) :=
  match s.get? j with
  | some (.command c) => some (c, { s with values := s.values.set j none })
  | _ => none

/-- Moving commands out of variables, first to last. -/
def takeAll : State → List Nat → Option (List Command × State)
  | s, [] => some ([], s)
  | s, j :: js => do
      let (c, s) ← s.take j
      let (cs, s) ← takeAll s js
      some (c :: cs, s)

def step : Action → Option State
  | .newDevice =>
      let (d, w) := Device.new s.world
      some (s.after w (some (.device d)))
  | .cloneDevice i => do
      let .device d ← s.get? i | none
      some (s.after (s.world.clone (.device d.inner)) (some (.device d)))
  | .drop i => do
      let v ← s.get? i
      some ⟨v.drop s.world, s.values.set i none⟩
  | .createBuffer i elemSize count answer => do
      let .device d ← s.get? i | none
      let (r, w) := d.createBuffer elemSize count answer s.world
      some (s.after w (r.toOption.map .buffer))
  | .createBindlessArray i slots answer => do
      let .device d ← s.get? i | none
      let (r, w) := d.createBindlessArray slots answer s.world
      some (s.after w (r.toOption.map .bindlessArray))
  | .createTex2d i formats format width height mips answer => do
      let .device d ← s.get? i | none
      let (r, w) := d.createTex2d formats format width height mips answer s.world
      some (s.after w ((r.toOption.bind Except.toOption).map .tex2d))
  | .createTex3d i formats format width height depth mips answer => do
      let .device d ← s.get? i | none
      let (r, w) := d.createTex3d formats format width height depth mips answer s.world
      some (s.after w ((r.toOption.bind Except.toOption).map .tex3d))
  | .defaultStream i => do
      let .device d ← s.get? i | none
      let (st, w) := d.defaultStream s.world
      some (s.after w (some (.stream st)))
  | .createStream i answer => do
      let .device d ← s.get? i | none
      let (r, w) := d.createStream answer s.world
      some (s.after w (r.toOption.map .stream))
  | .synchronize i answer => do
      let .stream st ← s.get? i | none
      some (s.after (st.synchronize answer s.world).2 none)
  | .commandBuffer i => do
      let .stream st ← s.get? i | none
      let (cb, w) := st.commandBuffer s.world
      some (s.after w (some (.commandBuffer cb)))
  | .command inner touched => do
      let handles ← touched.mapM fun i => (s.get? i).bind Value.resourceHandle?
      let (c, w) := Command.new inner handles s.world
      some (s.after w (some (.command c)))
  | .push i j => do
      let .commandBuffer cb ← s.get? i | none
      let (c, s) ← s.take j
      some { s with values := s.values.set i (some (.commandBuffer (cb.push c))) }
  | .extend i js => do
      let .commandBuffer cb ← s.get? i | none
      let (cs, s) ← s.takeAll js
      some { s with values := s.values.set i (some (.commandBuffer (cb.extend cs))) }
  | .commit i answer => do
      let .commandBuffer cb ← s.get? i | none
      some ⟨(cb.commit answer s.world).2, s.values.set i none⟩
  | .submitDefaultStreamAndSync i js dispatchAnswer syncAnswer => do
      let .device d ← s.get? i | none
      let (cs, s) ← s.takeAll js
      some (s.after (submitDefaultStreamAndSync d cs dispatchAnswer syncAnswer s.world).2 none)

/-- Running a sequence of actions; `none` when one of them does not apply. -/
def run : State → List Action → Option State
  | s, [] => some s
  | s, a :: as => (s.step a).bind (run · as)

end State

/-- The backend's answer to the create call of an action that creates a backend object. -/
def Action.createAnswer? : Action → Option (Except BackendError Unit)
  | .createBuffer _ _ _ answer | .createBindlessArray _ _ answer
  | .createTex2d _ _ _ _ _ _ answer | .createTex3d _ _ _ _ _ _ _ answer
  | .createStream _ answer => some answer
  | _ => none

namespace State

/-! ## Steps on a variable

The actions that use a device, a stream or a command buffer look the value up in its variable
first, and apply only when the variable holds such a value. -/

variable {s s' : State} {i : Nat}

theorem bind_device_eq_some {f : Device → Option State} :
    (do
      let .device d ← s.get? i | none
      f d) = some s' ↔ ∃ d, s.get? i = some (.device d) ∧ f d = some s' := by
  rcases s.get? i with _ | v
  · simp
  · cases v <;> simp

theorem bind_stream_eq_some {f : Stream → Option State} :
    (do
      let .stream st ← s.get? i | none
      f st) = some s' ↔ ∃ st, s.get? i = some (.stream st) ∧ f st = some s' := by
  rcases s.get? i with _ | v
  · simp
  · cases v <;> simp

theorem bind_commandBuffer_eq_some {f : CommandBuffer → Option State} :
    (do
      let .commandBuffer cb ← s.get? i | none
      f cb) = some s' ↔ ∃ cb, s.get? i = some (.commandBuffer cb) ∧ f cb = some s' := by
  rcases s.get? i with _ | v
  · simp
  · cases v <;> simp

/-- An action whose create call the backend refuses changes no variable and no allocation: the
log gains the refused call, or nothing when a texture format check fails first. -/
theorem step_of_create_error {a : Action} {e : BackendError}
    (ha : a.createAnswer? = some (.error e)) (h : s.step a = some s') :
    s'.values = s.values ∧ (s'.world = s.world ∨ ∃ c, s'.world = s.world.call c) := by
  cases a <;> cases ha <;> obtain ⟨d, -, h⟩ := bind_device_eq_some.mp h
  case createTex2d | createTex3d =>
    simp only [Device.createTex2d, Device.createTex3d, Device.createTexture_error] at h
    split at h <;> cases h
    · exact ⟨List.append_nil _, .inr ⟨_, rfl⟩⟩
    · exact ⟨List.append_nil _, .inl rfl⟩
  all_goals
    cases h
    exact ⟨List.append_nil _, .inr ⟨_, rfl⟩⟩

end State

/-- The states a program can reach from the empty world. -/
inductive Reachable : State → Prop
  | init : Reachable State.init
  | step {s s' : State} (a : Action) : Reachable s → s.step a = some s' → Reachable s'

end LuisaCompute
