import NodeSerialport.Binding.Requests
import NodeSerialport.Native.Delivery
/-!
# A port and its native side

`BindingPort` over `NativePort`: the JavaScript thread runs until it calls the native handle, waits for its answer, and
goes on; the reactor and the device go on meanwhile.  Events reach JavaScript through the callback queue.

* `System` — the two sides;
* `Input`, `Output` — what happens next, and what is seen of it;
* `System.step`, `system` — the machine;
* `SystemStep` — what one step can do.
-/

namespace NodeSerialport.Composition

open Lib (Machine)
open Binding (Client NativeCall Answer)
open Native (NativePort CallbackEvent Allocation)

structure System where
  js : Client
  native : NativePort
  deriving Repr

/-- A port that was just constructed; its device is being opened. -/
def System.new (path : String) (nextId : ℕ) : System := ⟨Client.new path nextId, {}⟩

inductive Input where
  /-- JavaScript goes on by itself: not with an answer of the native handle, nor with a callback. -/
  | js (input : Binding.Input)
  /-- The native side goes on by itself. -/
  | native (input : Native.Input)
  /-- The native handle returns to JavaScript. -/
  | answer
  /-- The first event of the callback queue is converted, and reaches JavaScript. -/
  | callback (allocate : ℕ → Allocation)

inductive Output where
  | js (output : Binding.Output)
  | native (output : Native.Output)
  | answered (call : NativeCall) (answer : Answer)
  /-- JavaScript observes the completion of a queued ordered operation. -/
  | completed (id : ℕ)
  deriving Repr

/-- An input the JavaScript side takes by itself. -/
def jsInput : Binding.Input → Bool
  | .answer _ | .callback _ => false
  | _ => true

/-- An input the native side takes by itself. -/
def nativeInput : Native.Input → Bool
  | .call _ | .returns | .consume => false
  | _ => true

def stops : Binding.Output → Bool
  | .stopped => true
  | _ => false

/-- The native side after JavaScript ran: it may have been stopped, and a call of the handle may have begun. -/
def enter (n : NativePort) (js : Client) (outputs : List Binding.Output) : NativePort :=
  { n with
    stop := n.stop || outputs.any stops
    call := match n.call, js.calling with
      | none, some (call, _) => some (.check call)
      | call, _ => call }

namespace System

/-- The completion an event brings: a record of an ordered operation has its id. -/
def completions (s : System) : CallbackEvent → List Output
  | .event nativeEvent =>
    match nativeEvent.kind with
    | .opened | .closed => []
    | _ =>
      match s.js.port.pending.lookup nativeEvent.id with
      | some ⟨_, true⟩ => [.completed nativeEvent.id]
      | _ => []
  | _ => []

def step (s : System) : Input → Option (System × List Output)
  | .js input =>
    if jsInput input then
      match s.js.step input with
      | none => none
      | some (js, outputs) => some (⟨js, enter s.native js outputs⟩, outputs.map .js)
    else none
  | .native input =>
    if nativeInput input then
      match s.native.step input with
      | none => none
      | some (native, outputs) => some (⟨s.js, native⟩, outputs.map .native)
    else none
  | .answer =>
    match s.native.call, s.js.calling with
    | some (.returned answer), some (call, _) =>
      match s.js.step (.answer answer) with
      | none => none
      | some (js, outputs) =>
        some (⟨js, enter { s.native with call := none } js outputs⟩, .answered call answer :: outputs.map .js)
    | _, _ => none
  | .callback allocate =>
    match s.native.callbacks with
    | [] => none
    | event :: callbacks =>
      match s.js.step (.callback (event.callback allocate)) with
      | none => none
      | some (js, outputs) =>
        some (⟨js, enter { s.native with callbacks := callbacks } js outputs⟩, s.completions event ++ outputs.map .js)

end System

def system : Machine System Input Output := ⟨System.step⟩

/-! ### Outputs -/

def Output.js? : Output → Option Binding.Output
  | .js output => some output
  | _ => none

def Output.native? : Output → Option Native.Output
  | .native output => some output
  | _ => none

def Output.accepted? : Output → Option NativeCall
  | .answered call .completed | .answered call .queued => some call
  | _ => none

/-- An operation done at once is complete when the native handle returns. -/
def Output.completed? : Output → Option ℕ
  | .answered call .completed => some call.id
  | .completed id => some id
  | _ => none

/-- The calls the native handle took. -/
def accepted (outputs : List Output) : List NativeCall := outputs.filterMap Output.accepted?

/-- The ids of the operations whose completion JavaScript observed. -/
def completed (outputs : List Output) : List ℕ := outputs.filterMap Output.completed?

/-- What the native side emitted. -/
def natives (outputs : List Output) : List Native.Output := outputs.filterMap Output.native?

@[simp] theorem accepted_append (a b : List Output) : accepted (a ++ b) = accepted a ++ accepted b :=
  List.filterMap_append

@[simp] theorem completed_append (a b : List Output) : completed (a ++ b) = completed a ++ completed b :=
  List.filterMap_append

@[simp] theorem natives_append (a b : List Output) : natives (a ++ b) = natives a ++ natives b := List.filterMap_append

@[simp] theorem accepted_js (outputs : List Binding.Output) : accepted (outputs.map .js) = [] := by
  simp [accepted, Output.accepted?]

@[simp] theorem completed_js (outputs : List Binding.Output) : completed (outputs.map .js) = [] := by
  simp [completed, Output.completed?]

@[simp] theorem natives_js (outputs : List Binding.Output) : natives (outputs.map .js) = [] := by
  simp [natives, Output.native?]

@[simp] theorem accepted_native (outputs : List Native.Output) : accepted (outputs.map .native) = [] := by
  simp [accepted, Output.accepted?]

@[simp] theorem completed_native (outputs : List Native.Output) : completed (outputs.map .native) = [] := by
  simp [completed, Output.completed?]

@[simp] theorem natives_native (outputs : List Native.Output) : natives (outputs.map .native) = outputs := by
  have hcomp : Output.native? ∘ Output.native = some := rfl
  rw [natives, List.filterMap_map, hcomp, List.filterMap_some]

/-! ### Steps -/

/-- **What one step of the composition can do.** -/
inductive SystemStep (s : System) : Input → System → List Output → Prop
  | js {i : Binding.Input} {js : Client} {out : List Binding.Output} (hi : jsInput i = true)
      (h : Binding.client.step s.js i = some (js, out)) :
      SystemStep s (.js i) ⟨js, enter s.native js out⟩ (out.map .js)
  | native {i : Native.Input} {native : NativePort} {out : List Native.Output} (hi : nativeInput i = true)
      (h : Native.native.step s.native i = some (native, out)) :
      SystemStep s (.native i) ⟨s.js, native⟩ (out.map .native)
  | answer {answer : Answer} {call : NativeCall} {site : Binding.Site} {js : Client} {out : List Binding.Output}
      (hcall : s.native.call = some (.returned answer)) (hcalling : s.js.calling = some (call, site))
      (h : Binding.client.step s.js (.answer answer) = some (js, out)) :
      SystemStep s .answer ⟨js, enter { s.native with call := none } js out⟩ (.answered call answer :: out.map .js)
  | callback {allocate : ℕ → Allocation} {event : CallbackEvent} {callbacks : List CallbackEvent} {js : Client}
      {out : List Binding.Output} (hcallbacks : s.native.callbacks = event :: callbacks)
      (h : Binding.client.step s.js (.callback (event.callback allocate)) = some (js, out)) :
      SystemStep s (.callback allocate) ⟨js, enter { s.native with callbacks := callbacks } js out⟩
        (s.completions event ++ out.map .js)

theorem system_step {s s' : System} {i : Input} {out : List Output} (h : system.step s i = some (s', out)) :
    SystemStep s i s' out := by
  change s.step i = _ at h
  cases i with
  | js input =>
    rw [System.step] at h
    split at h
    · rename_i hi
      split at h
      · cases h
      · rename_i hstep
        cases h
        exact .js hi hstep
    · cases h
  | native input =>
    rw [System.step] at h
    split at h
    · rename_i hi
      split at h
      · cases h
      · rename_i hstep
        cases h
        exact .native hi hstep
    · cases h
  | answer =>
    rw [System.step] at h
    split at h
    · rename_i hcall hcalling
      split at h
      · cases h
      · rename_i hstep
        cases h
        exact .answer hcall hcalling hstep
    · cases h
  | callback allocate =>
    rw [System.step] at h
    split at h
    · cases h
    · rename_i hcallbacks
      split at h
      · cases h
      · rename_i hstep
        cases h
        exact .callback hcallbacks hstep

/-- The part of the native side that JavaScript does not touch. -/
structure Entered (n n' : NativePort) (js : Client) : Prop where
  reactor : n'.reactor = n.reactor
  receiving : n'.receiving = n.receiving
  channel : n'.channel = n.channel
  callbacks : n'.callbacks = n.callbacks
  pendingOps : n'.pendingOps = n.pendingOps
  teardown : n'.teardown = n.teardown
  stop : n.stop = true → n'.stop = true
  call : n'.call = match n.call, js.calling with
    | none, some (call, _) => some (.check call)
    | call, _ => call

theorem enter_entered (n : NativePort) (js : Client) (outputs : List Binding.Output) :
    Entered n (enter n js outputs) js := by
  refine ⟨rfl, rfl, rfl, rfl, rfl, rfl, ?_, rfl⟩
  intro hstop
  show (n.stop || _) = true
  rw [hstop]
  rfl

end NodeSerialport.Composition
