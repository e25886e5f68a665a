import NodeSerialport.Composition.Connection
import NodeSerialport.Composition.Conveyed
/-!
# The whole stack

`SerialPortStream` over `BindingPort` over `NativePort` and its reactor: a connection whose ports each have their native
side.

* `Stack` — the connection, and the native side of each of its ports;
* `Stack.step`, `stack` — the machine;
* `streamOutputs`, `portOutputs` — what the stream emitted, and what a port did.
-/

namespace NodeSerialport.Composition

open Lib (Machine)
open Binding (Client Method Settlement)
open Native (NativePort)
open NodeSerialport.Stream (SerialPortStream)

structure Stack where
  connection : Connection
  natives : List NativePort := []

namespace Stack

def new (path : String) (endOnClose : Bool) (highWaterMark : ℕ) (baudRate : Option ℕ) : Stack :=
  { connection := .new path endOnClose highWaterMark baudRate }

/-- A port with its native side. -/
def port (s : Stack) (p : ℕ) : Option System :=
  match s.connection.ports[p]?, s.natives[p]? with
  | some js, some native => some ⟨js, native⟩
  | _, _ => none

inductive Input where
  /-- The stream goes on, as in a connection. -/
  | stream (input : Stream.Input) (argument : Settlement ℕ)
  /-- A port goes on, or its native side. -/
  | port (port : ℕ) (input : Composition.Input)

inductive Output where
  | stream (output : Stream.Output)
  | port (port : ℕ) (output : Composition.Output)

/-- What a port may do next; the native side waits for nobody. -/
def turns (s : Stack) : Composition.Input → Bool
  | .js input => s.connection.turns input
  | .callback _ => s.connection.quiet
  | .native _ | .answer => true

/-- A port has taken a step. -/
def receive (s : Stack) (p : ℕ) (t : System) (out : List Composition.Output) : Stack :=
  ⟨s.connection.receive p t.js (jsOutputs out), s.natives.set p t.native⟩

/-- The stream makes a call; the native side of a new port starts with it. -/
def call (s : Stack) (argument : Settlement ℕ) (output : Stream.Output) : Option (Stack × List Output) :=
  match output, s.connection.target argument output with
  | .bindingOpen, _ => (s.connection.call argument .bindingOpen).map fun c => (⟨c, s.natives ++ [{}]⟩, [])
  | output, some (p, .ok m) =>
    match s.port p with
    | none => none
    | some t =>
      match t.step (.js (.invoke m)) with
      | none => none
      | some (t', out) =>
        some ({ s with connection := s.connection.link output p t.js.promises }.receive p t' out, out.map (.port p))
  | output, _ => (s.connection.call argument output).map fun c => (⟨c, s.natives⟩, [])

/-- The calls of a step of the stream. -/
def calls (s : Stack) (argument : Settlement ℕ) : List Stream.Output → Option (Stack × List Output)
  | [] => some (s, [])
  | output :: rest =>
    match s.call argument output with
    | none => none
    | some (s, made) =>
      match calls s argument rest with
      | none => none
      | some (s, later) => some (s, .stream output :: made ++ later)

def step (s : Stack) : Input → Option (Stack × List Output)
  | .stream input argument =>
    if s.connection.admits input then
      match s.connection.stream.step input with
      | none => none
      | some (stream, out) => { s with connection := { s.connection.spent input with stream := stream } }.calls argument out
    else none
  | .port p input =>
    if s.turns input then
      match s.port p with
      | none => none
      | some t =>
        match t.step input with
        | none => none
        | some (t', out) =>
          match input with
          | .native _ => some ({ s with natives := s.natives.set p t'.native }, out.map (.port p))
          | _ => some (s.receive p t' out, out.map (.port p))
    else none

end Stack

def stack : Machine Stack Stack.Input Stack.Output := ⟨Stack.step⟩

/-! ### Outputs -/

def Stack.Output.stream? : Stack.Output → Option Stream.Output
  | .stream output => some output
  | _ => none

def Stack.Output.port? (p : ℕ) : Stack.Output → Option Composition.Output
  | .port q output => if q = p then some output else none
  | _ => none

/-- What the stream emitted. -/
def streamOutputs (outputs : List Stack.Output) : List Stream.Output := outputs.filterMap Stack.Output.stream?

/-- What a port and its native side emitted. -/
def portOutputs (p : ℕ) (outputs : List Stack.Output) : List Output := outputs.filterMap (Stack.Output.port? p)

@[simp] theorem streamOutputs_append (a b : List Stack.Output) :
    streamOutputs (a ++ b) = streamOutputs a ++ streamOutputs b := List.filterMap_append

@[simp] theorem portOutputs_append (p : ℕ) (a b : List Stack.Output) :
    portOutputs p (a ++ b) = portOutputs p a ++ portOutputs p b := List.filterMap_append

@[simp] theorem streamOutputs_port (p : ℕ) (out : List Output) : streamOutputs (out.map (.port p)) = [] := by
  simp [streamOutputs, Stack.Output.stream?]

theorem portOutputs_self (p : ℕ) (out : List Output) : portOutputs p (out.map (.port p)) = out := by
  have hcomp : Stack.Output.port? p ∘ Stack.Output.port p = some := funext fun output => if_pos rfl
  rw [portOutputs, List.filterMap_map, hcomp, List.filterMap_some]

theorem portOutputs_other {p q : ℕ} (h : q ≠ p) (out : List Output) : portOutputs p (out.map (.port q)) = [] := by
  rw [portOutputs, List.filterMap_eq_nil_iff]
  intro output hmem
  obtain ⟨o, -, rfl⟩ := List.mem_map.1 hmem
  exact if_neg h

end NodeSerialport.Composition
