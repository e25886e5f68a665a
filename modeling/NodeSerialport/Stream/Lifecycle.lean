import NodeSerialport.Stream.Connections
/-!
# The life cycle of a stream

A step calls a callback, or still owes it, as often as it was asked for; it emits a 'close' event, or leaves it to be
emitted; and it keeps what holds of the present port.

* `called`, `emitted`, `issued` — what a run shows, and what it was asked for;
* `SerialPortStream.Honest` — what is expected of listeners and of bindings;
* `Taken` — what is left once a task or a promise is taken off its list;
* `Advances` — what one step does; `step_advances` — that every step does it.
-/

namespace NodeSerialport.Stream

open Parsers (Buffer)
open Binding (SerialError)

/-! ### What a run shows -/

/-- How often a callback was called. -/
def called (k : ℕ) (outputs : List Output) : ℕ := (outputs.map (Output.weight k)).sum

/-- How many 'close' events of a port were emitted. -/
def emitted (port : ℕ) (outputs : List Output) : ℕ := outputs.countP (Output.closed port)

/-- How often an input asks for a callback. -/
def Input.issues (k : ℕ) : Input → ℕ
  | .enter (.open cb) | .enter (.close cb) | .enter (.operation _ _ cb) => if cb = some k then 1 else 0
  | _ => 0

def issued (k : ℕ) (inputs : List Input) : ℕ := (inputs.map (Input.issues k)).sum

/-- The port an input hands over, if that has closed. -/
def Input.shut : Input → List ℕ
  | .settle _ (.port port false) => [port]
  | _ => []

namespace SerialPortStream

/-- Listeners do not throw, and a port changes its `isOpen` in `close()`, or in the step in which it calls `onClose`. -/
def Honest (s : SerialPortStream) : Input → Prop
  | .throws _ => ∀ rest, s.todo ≠ .outside .listener :: rest
  | .isOpen port _ => s.port = some port → 0 < s.awaits port
  | _ => True

end SerialPortStream

open SerialPortStream

variable {s s' s₁ : SerialPortStream} {k n w : ℕ} {out : List Output} {shut : List ℕ}

theorem called_append (k : ℕ) (a b : List Output) : called k (a ++ b) = called k a + called k b := by
  simp [called]

theorem emitted_append (port : ℕ) (a b : List Output) : emitted port (a ++ b) = emitted port a + emitted port b :=
  List.countP_append

theorem issued_append (k : ℕ) (a : List Input) (input : Input) : issued k (a ++ [input]) = issued k a + input.issues k := by
  simp [issued]

theorem weigh_user (k : ℕ) (cb : Option ℕ) : weigh k (cb.map .user) = if cb = some k then 1 else 0 := by
  cases cb <;> simp [weigh, Callback.weight]

/-! ### Taking something off the lists -/

/-- A task or a promise was taken off its list, with so many callbacks, and a call was made. -/
structure Taken (k w : ℕ) (out : List Output) (s s₁ : SerialPortStream) : Prop where
  opening : s₁.opening = s.opening
  openings : s₁.openings = s.openings
  port : s₁.port = s.port
  load : called k out + s₁.load k + w = s.load k
  closes : ∀ port, emitted port out + s₁.closes port = s.closes port
  awaits : ∀ port, s₁.awaits port ≤ s.awaits port

theorem Taken.refl (k : ℕ) (s : SerialPortStream) : Taken k 0 [] s s :=
  ⟨rfl, rfl, rfl, Nat.zero_add _, fun _ => Nat.zero_add _, fun _ => le_rfl⟩

theorem Taken.output (h : Taken k w [] s s₁) {output : Output} (hweight : output.weight k = 0)
    (hclosed : ∀ port, output.closed port = false) : Taken k w [output] s s₁ := by
  refine ⟨h.opening, h.openings, h.port, ?_, fun port => ?_, h.awaits⟩
  · rw [← h.load]
    simp [called, hweight]
  · rw [← h.closes]
    simp [emitted, hclosed]

theorem Taken.popped (k : ℕ) {task : Task} {rest : List Task} (htodo : s.todo = task :: rest)
    (hclosed : ∀ port, task.closed port = false) : Taken k (task.weight k) [] s { s with todo := rest } := by
  refine ⟨rfl, rfl, rfl, ?_, fun port => ?_, fun port => ?_⟩
  · simp only [SerialPortStream.load, htodo, List.map_cons, List.sum_cons, called, List.map_nil, List.sum_nil]
    omega
  · show 0 + (rest.countP _ + _) = s.todo.countP _ + _
    rw [htodo, List.countP_cons, hclosed port, Nat.zero_add]
    rfl
  · show rest.countP (Task.closes port) + s.promises.countP (Promise.closes port) ≤
      s.todo.countP (Task.closes port) + s.promises.countP (Promise.closes port)
    rw [htodo, List.countP_cons]
    omega

theorem load_first (k : ℕ) (s : SerialPortStream) (tasks : List Task) :
    (s.first tasks).load k = (tasks.map (Task.weight k)).sum + s.load k := by
  simp only [SerialPortStream.load, first, List.map_append, List.sum_append]
  omega

theorem load_erased (k : ℕ) {index : ℕ} {promise : Promise} (hpromise : s.promises[index]? = some promise) :
    ({ s with promises := s.promises.eraseIdx index } : SerialPortStream).load k + promise.weight k = s.load k := by
  obtain ⟨before, after, heq, herase⟩ := eq_of_getElem? hpromise
  simp only [SerialPortStream.load, herase]
  rw [heq]
  simp only [List.map_append, List.sum_append, List.map_cons, List.sum_cons]
  omega

theorem Taken.erased (k : ℕ) {index : ℕ} {promise : Promise} (hpromise : s.promises[index]? = some promise)
    (hopens : promise.opens = false) :
    Taken k (promise.weight k) [] s { s with promises := s.promises.eraseIdx index } := by
  obtain ⟨before, after, heq, herase⟩ := eq_of_getElem? hpromise
  refine ⟨rfl, ?_, rfl, ?_, fun _ => Nat.zero_add _, fun port => ?_⟩
  · show (s.promises.eraseIdx index).countP _ = s.promises.countP _
    rw [herase, heq, List.countP_append, List.countP_append, List.countP_cons, hopens]
    rfl
  · rw [← load_erased k hpromise]
    exact congrArg (· + _) (Nat.zero_add _)
  · show s.todo.countP (Task.closes port) + (s.promises.eraseIdx index).countP (Promise.closes port) ≤
      s.todo.countP (Task.closes port) + s.promises.countP (Promise.closes port)
    rw [herase, heq, List.countP_append, List.countP_append, List.countP_cons]
    omega

/-! ### What is kept of the present port -/

/-- The present port is the same, and no close of it comes to an end. -/
theorem Sane.transfer (h : Sane shut s) (hopening : s₁.opening = s.opening) (hclosing : s₁.closing = s.closing)
    (hport : s₁.port = s.port) (hports : s₁.ports = s.ports) (hcallbacks : s₁._closeCallbacks = s._closeCallbacks)
    (hfailing : s.closing → s.failing → s₁.failing) (hawaits : ∀ port, s.port = some port → s₁.awaits port = s.awaits port) :
    Sane shut s₁ := by
  refine ⟨fun hc => ?_, fun hc => ?_, fun port hp => ?_, fun port hp => ?_, fun ho port hp => ?_⟩
  · rw [hclosing] at hc
    rw [hopening, hport]
    rcases h.awaited hc with ho | hf | ⟨port, hp, hpos⟩
    · exact .inl ho
    · exact .inr (.inl (hfailing hc hf))
    · refine .inr (.inr ⟨port, hp, ?_⟩)
      rw [hawaits port hp]
      exact hpos
  · rw [hclosing]
    exact h.callbacks (hcallbacks ▸ hc)
  · rw [hport] at hp
    rw [hawaits port hp, hclosing, hopening]
    exact h.once port hp
  · rw [hport] at hp
    rw [hawaits port hp, hports]
    exact h.closed port hp
  · exact h.replaced (hopening ▸ ho) port (hport ▸ hp)

/-- A close of a port comes to an end: it was the only one of the present port. -/
theorem Sane.settles (h : Sane shut s) (s₁ : SerialPortStream) (port : ℕ) (hopening : s₁.opening = s.opening)
    (hclosing : s₁.closing = s.closing)
    (hport : s₁.port = s.port) (hports : s₁.ports = s.ports) (hcallbacks : s₁._closeCallbacks = s._closeCallbacks)
    (hfailing : s.failing → s₁.failing)
    (hawaits : ∀ p, s.awaits p = s₁.awaits p + if port = p then 1 else 0) :
    (s₁.port ≠ some port → Sane shut s₁) ∧ (s₁.port = some port → s₁.awaits port = 0 ∧ s₁.opening = false) := by
  refine ⟨fun hother => ?_, fun hsame => ?_⟩
  · refine h.transfer hopening hclosing hport hports hcallbacks (fun _ => hfailing) fun p hp => ?_
    have hne : port ≠ p := by
      rintro rfl
      exact hother (hport.trans hp)
    rw [hawaits p, if_neg hne, Nat.add_zero]
  · have honce := h.once port (hport ▸ hsame)
    rw [hawaits port, if_pos rfl] at honce
    split at honce
    · rename_i hcloses
      simp only [Bool.and_eq_true, Bool.not_eq_true'] at hcloses
      exact ⟨by omega, hopening.trans hcloses.2⟩
    · omega

theorem Sane.popped (h : Sane shut s) {task : Task} {rest : List Task} (htodo : s.todo = task :: rest)
    (hcloses : ∀ port, task.closes port = false) (hfails : s.closing → task.fails = false) :
    Sane shut { s with todo := rest } := by
  refine h.transfer rfl rfl rfl rfl rfl (fun hclosing hfailing => ?_) fun port _ => ?_
  · show rest.any Task.fails = true
    rw [failing, htodo, List.any_cons, hfails hclosing, Bool.false_or] at hfailing
    exact hfailing
  · show rest.countP _ + _ = s.todo.countP _ + _
    rw [htodo, List.countP_cons, hcloses port]
    rfl

theorem Sane.erased (h : Sane shut s) {index : ℕ} {promise : Promise} (hpromise : s.promises[index]? = some promise)
    (hcloses : ∀ port, promise.closes port = false) :
    Sane shut { s with promises := s.promises.eraseIdx index } := by
  obtain ⟨before, after, heq, herase⟩ := eq_of_getElem? hpromise
  refine h.transfer rfl rfl rfl rfl rfl (fun _ => id) fun port _ => ?_
  show _ + (s.promises.eraseIdx index).countP _ = _ + s.promises.countP _
  rw [herase, heq, List.countP_append, List.countP_append, List.countP_cons, hcloses port]
  rfl

/-! ### What one step does -/

/-- What one step does. -/
structure Advances (k : ℕ) (s : SerialPortStream) (input : Input) (out : List Output) (s' : SerialPortStream) : Prop where
  openings : (s.openings = if s.opening then 1 else 0) → s'.openings = if s'.opening then 1 else 0
  load : called k out + s'.load k = s.load k + input.issues k
  closes : ∀ port, emitted port out + s'.closes port ≤ s.closes port + input.ports.count port
  known : ∀ port, s'.port = some port ∨ 0 < s'.awaits port →
    (s.port = some port ∨ 0 < s.awaits port) ∨ port ∈ input.ports
  sane : ∀ shut, (∀ port ∈ input.ports, s.port ≠ some port ∧ s.awaits port = 0) → Sane shut s → Sane (shut ++ input.shut) s'
  port : s'.port = none ∨ s'.port = s.port ∨ s.opening

theorem Advances.steady {input : Input} (htaken : Taken k w out s s₁) (hsteady : Steady k n s₁ s')
    (hissues : n = w + input.issues k) (hports : input.ports = []) (hshut : input.shut = [])
    (hsane : ∀ shut, Sane shut s → Sane shut s') : Advances k s input out s' := by
  refine ⟨fun h => ?_, ?_, fun port => ?_, fun port hknown => ?_, fun shut _ hs => ?_, ?_⟩
  · rw [hsteady.openings, htaken.openings, hsteady.opening, htaken.opening]
    exact h
  · have hload := htaken.load
    rw [hsteady.load]
    omega
  · rw [hsteady.closes, htaken.closes, hports]
    exact le_rfl
  · left
    rcases hknown with hport | hawaits
    · rcases hsteady.port with hnone | hsame
      · rw [hnone] at hport
        cases hport
      · exact .inl (htaken.port ▸ hsame ▸ hport)
    · rcases hsteady.awaits port with hle | hport
      · exact .inr (Nat.lt_of_lt_of_le hawaits (hle.trans (htaken.awaits port)))
      · exact .inl (htaken.port ▸ hport)
  · rw [hshut, List.append_nil]
    exact hsane shut hs
  · exact hsteady.port.imp_right fun hsame => .inl (hsame.trans htaken.port)

theorem Advances.light {input : Input} (htaken : Taken k w out s s₁) (hlight : Light k n s₁ s')
    (hissues : n = w + input.issues k) (hports : input.ports = []) (hshut : input.shut = [])
    (hsane : ∀ shut, Sane shut s → Sane shut s₁) : Advances k s input out s' :=
  .steady htaken hlight.steady hissues hports hshut fun shut hs => hlight.sane (hsane shut hs)

/-- A step that moves what is outstanding from one list to another, or makes a call. -/
theorem Advances.moved {input : Input} (hopening : s'.opening = s.opening) (hclosing : s'.closing = s.closing)
    (hport : s'.port = s.port) (hports : s'.ports = s.ports) (hcallbacks : s'._closeCallbacks = s._closeCallbacks)
    (hopenings : s'.openings = s.openings) (hfailing : s'.failing = s.failing)
    (hload : called k out + s'.load k = s.load k) (hcloses : ∀ port, emitted port out + s'.closes port = s.closes port)
    (hawaits : ∀ port, s'.awaits port = s.awaits port) (hissues : input.issues k = 0) (hnone : input.ports = [])
    (hshut : input.shut = []) : Advances k s input out s' := by
  refine ⟨fun h => ?_, ?_, fun port => ?_, fun port hknown => .inl ?_, fun shut _ hs => ?_, .inr (.inl hport)⟩
  · rw [hopenings, hopening]
    exact h
  · rw [hload, hissues]
    rfl
  · rw [hcloses, hnone]
    exact le_rfl
  · rw [hport, hawaits] at hknown
    exact hknown
  · rw [hshut, List.append_nil]
    exact hs.transfer hopening hclosing hport hports hcallbacks (fun _ h => hfailing.trans h) fun port _ => hawaits port

theorem setOpen_steady (s : SerialPortStream) (port : ℕ) (value : Bool) : Steady k 0 s (s.setOpen port value) :=
  ⟨rfl, rfl, .inr rfl, rfl, fun _ => rfl, fun _ => .inl le_rfl⟩

/-- **`open`.** -/
theorem open_advances (k : ℕ) (s : SerialPortStream) (cb : Option ℕ) :
    Advances k s (.enter (.open cb)) [] (s.open (cb.map .user)) := by
  have hasync (message : String) : Advances k s (.enter (.open cb)) [] (s._asyncError message (cb.map .user)) :=
    .light (.refl k s) (_asyncError_light k s message _) ((weigh_user k cb).trans (Nat.zero_add _).symm) rfl rfl fun _ => id
  unfold SerialPortStream.open
  split
  · exact hasync _
  split
  · exact hasync _
  split
  · exact hasync _
  · rename_i hopen hbusy
    simp only [Bool.or_eq_true, not_or, Bool.not_eq_true] at hbusy
    obtain ⟨hopening, hclosing⟩ := hbusy
    have hawaits (port : ℕ) : (({ s with opening := true }.await (.opening (cb.map .user))).first
        [.call .bindingOpen .opening]).awaits port = s.awaits port := by
      simp [SerialPortStream.awaits, first, await, Task.closes, Kind.closes, Promise.closes]
    refine ⟨fun h => ?_, ?_, fun port => ?_, fun port hknown => .inl ?_, fun shut _ hs => ?_, .inr (.inl rfl)⟩
    · rw [hopening] at h
      show (s.promises ++ [Promise.opening (cb.map .user)]).countP Promise.opens = 1
      rw [List.countP_append, show s.promises.countP Promise.opens = 0 from h]
      rfl
    · rw [show Input.issues k (.enter (.open cb)) = weigh k (cb.map .user) from (weigh_user k cb).symm]
      simp [SerialPortStream.load, first, await, called, Task.weight, Output.weight, Kind.weight, Promise.weight]
      omega
    · refine Nat.le_of_eq ?_
      simp [SerialPortStream.closes, first, await, emitted, Task.closed, Task.output?, Output.closed, Input.ports]
      rfl
    · rw [hawaits] at hknown
      exact hknown
    · have hnone {port : ℕ} (hport : s.port = some port) : s.awaits port = 0 := by
        have honce := hs.once port hport
        rw [hclosing] at honce
        exact Nat.le_zero.1 honce
      rw [show Input.shut (.enter (.open cb)) = [] from rfl, List.append_nil]
      refine ⟨fun _ => .inl rfl, hs.callbacks, fun port hport => ?_, fun port hport => ?_, fun _ port hport => ?_⟩
      · rw [hawaits, hnone hport]
        exact Nat.zero_le _
      · rw [hawaits]
        exact hs.closed port hport
      · -- a port that is not open, and not being closed, had closed before
        rcases hs.closed port hport with hstill | hshut | hpos
        · simp [isOpen, show s.port = some port from hport, hstill, hclosing] at hopen
        · exact hshut
        · rw [hnone hport] at hpos
          exact absurd hpos (Nat.lt_irrefl 0)

theorem enter_advances (hwaits : s.waits) {entry : Entry} (hstep : s.enter entry = some (s', out)) :
    Advances k s (.enter entry) out s' := by
  have hlight {n : ℕ} (hlight : Light k n s s') (hissues : n = Input.issues k (.enter entry)) :
      Advances k s (.enter entry) [] s' :=
    .light (.refl k s) hlight (hissues.trans (Nat.zero_add _).symm) rfl rfl fun _ => id
  cases entry with
  | «open» cb =>
    cases hstep
    exact open_advances k s cb
  | close cb =>
    cases hstep
    exact .steady (.refl k s) (close_steady s _ none fun _ => hwaits) ((weigh_user k cb).trans (Nat.zero_add _).symm) rfl rfl
      fun _ h => close_sane h _ none fun _ => hwaits
  | destroy error =>
    cases hstep
    refine hlight (n := 0) ?_ rfl
    split
    · exact .refl k s
    · have hset : Light k 0 s { s with destroyed := true } := .of_eq rfl rfl rfl rfl rfl rfl rfl rfl
      have hfirst := Light.first k { s with destroyed := true } [.destroy error] (by
        intro task hmem
        rw [List.mem_singleton.1 hmem]
        exact ⟨fun _ => rfl, fun _ => rfl, rfl⟩)
      exact (hset.trans hfirst).trans (_failWaitingWrite_light k _ _)
  | operation operation baudRate cb =>
    cases hstep
    exact hlight (_operation_light k s operation baudRate _) (weigh_user k cb)
  | _read length =>
    obtain ⟨-, heq⟩ := Option.ite_none_left_eq_some.1 (show (if s.destroyed then none else _) = _ from hstep)
    cases heq
    exact hlight (_read_light k s length) rfl
  | _write data =>
    obtain ⟨-, heq⟩ := Option.ite_none_left_eq_some.1
      (show (if s.destroyed || s.writing.isSome then none else _) = _ from hstep)
    cases heq
    have hhand : Light k 0 s s.hand := .of_eq rfl rfl rfl rfl rfl rfl rfl rfl
    exact .light ((Taken.refl k s).output rfl fun _ => rfl) (hhand.trans (_write_light k _ _ _)) rfl rfl rfl fun _ => id
  | _writev chunks =>
    obtain ⟨-, heq⟩ := Option.ite_none_left_eq_some.1
      (show (if s.destroyed || s.writing.isSome then none else _) = _ from hstep)
    cases heq
    have hhand : Light k 0 s s.hand := .of_eq rfl rfl rfl rfl rfl rfl rfl rfl
    exact .light ((Taken.refl k s).output rfl fun _ => rfl) (hhand.trans (_writev_light k _ _ _)) rfl rfl rfl fun _ => id
  | onClose port error closed =>
    cases hstep
    refine .steady (n := 0) (.refl k s) ?_ rfl rfl rfl fun shut h => ?_
    · cases closed with
      | false => exact onClose_steady s port error fun _ => hwaits
      | true => exact (setOpen_steady s port false).trans (onClose_steady _ port error fun _ => hwaits)
    · cases closed with
      | false => exact onClose_sane h port error fun _ => hwaits
      | true => exact onClose_closed h port error
  | onData port data =>
    cases hstep
    exact hlight (onData_light k s port data) rfl

theorem returned_advances {kind : Kind} {rest : List Task} (htodo : s.todo = .outside kind :: rest) :
    Advances k s .returns [] ({ s with todo := rest }.returned kind) := by
  have htaken := Taken.popped k htodo fun _ => rfl
  have hlight (hcancels : kind.cancels = false)
      (hlight : Light k 0 { s with todo := rest } ({ s with todo := rest }.returned kind)) :
      Advances k s .returns [] ({ s with todo := rest }.returned kind) := by
    refine .light htaken hlight ?_ rfl rfl fun shut hs => hs.popped htodo (fun port => ?_) fun _ => rfl
    · cases kind <;> first | rfl | cases hcancels
    · cases kind <;> first | rfl | cases hcancels
  cases kind with
  | canceling port cb =>
    -- the call becomes the promise of its result
    refine .moved rfl rfl rfl rfl rfl ?_ ?_ ?_ (fun p => ?_) (fun p => ?_) rfl rfl rfl
    · show (s.promises ++ [Promise.canceling port cb]).countP Promise.opens = s.promises.countP Promise.opens
      rw [List.countP_append]
      rfl
    · show rest.any Task.fails = s.todo.any Task.fails
      rw [htodo]
      rfl
    · rw [← htaken.load, Nat.add_assoc]
      have hawait : ({ s with todo := rest }.await (.canceling port cb)).load k =
          ({ s with todo := rest } : SerialPortStream).load k + weigh k cb := by
        simp only [SerialPortStream.load, await, List.map_append, List.sum_append, List.map_cons, List.map_nil,
          List.sum_cons, List.sum_nil, Promise.weight]
        omega
      exact congrArg (called k [] + ·) hawait
    · show 0 + (rest.countP (Task.closed p) + _) = s.todo.countP (Task.closed p) + _
      rw [htodo, Nat.zero_add]
      rfl
    · show rest.countP (Task.closes p) + (s.promises ++ [Promise.canceling port cb]).countP (Promise.closes p) =
        s.todo.countP (Task.closes p) + s.promises.countP (Promise.closes p)
      rw [htodo, List.countP_append, List.countP_cons, List.countP_cons, List.countP_nil,
        show Promise.closes p (.canceling port cb) = Task.closes p (.outside (.canceling port cb)) from rfl]
      omega
  | opening => exact hlight rfl (.of_eq rfl rfl rfl rfl rfl rfl rfl rfl)
  | _ => exact hlight rfl (.refl _ _)

theorem thrown_advances (hs : Sound false s) {kind : Kind} {rest : List Task} (htodo : s.todo = .outside kind :: rest)
    {reason : Thrown} (hhonest : s.Honest (.throws reason)) :
    Advances k s (.throws reason) [] ({ s with todo := rest }.thrown reason kind) := by
  have htaken := Taken.popped k htodo fun _ => rfl
  have happart : Apart { s with todo := rest } := hs.apart rfl
  have hpopped (hcancels : kind.cancels = false) (shut : List ℕ) (h : Sane shut s) : Sane shut { s with todo := rest } := by
    refine h.popped htodo (fun port => ?_) fun _ => rfl
    cases kind <;> first | rfl | cases hcancels
  cases kind with
  | listener => exact absurd htodo (hhonest rest)
  | binding => exact .light htaken (.refl k _) rfl rfl rfl (hpopped rfl)
  | opening => exact .light htaken (.of_eq rfl rfl rfl rfl rfl rfl rfl rfl) rfl rfl rfl (hpopped rfl)
  | startReading port length =>
    exact .steady htaken (_readError_steady happart port reason length) rfl rfl rfl fun shut h =>
      _readError_sane (hpopped rfl shut h) happart port reason length
  | canceling port cb =>
    refine .steady htaken (canceled_steady _ port cb (some reason)) rfl rfl rfl fun shut h => ?_
    obtain ⟨hother, hsame⟩ := h.settles { s with todo := rest } port rfl rfl rfl rfl rfl
      (fun hfailing => by
        rw [failing, htodo] at hfailing
        exact hfailing)
      (fun p => by
        show s.todo.countP (Task.closes p) + s.promises.countP (Promise.closes p) =
          rest.countP (Task.closes p) + s.promises.countP (Promise.closes p) + _
        rw [htodo, List.countP_cons, show Task.closes p (.outside (.canceling port cb)) = decide (port = p) from rfl]
        simp only [decide_eq_true_eq]
        omega)
    exact canceled_sane hother hsame cb (some reason)

theorem waits_of_destroy {wild : Bool} {error : Option SerialError} {rest : List Task} (h : Orderly wild (.destroy error :: rest)) :
    Task.waiting rest := by
  cases h with
  | clear h =>
    cases h with
    | inner hinner _ => cases hinner
    | destroying hwaits _ => exact hwaits
    | canceling hcancels => cases hcancels

theorem perform_advances (hs : Sound false s) {task : Task} {rest : List Task} (htodo : s.todo = task :: rest)
    (hstep : ({ s with todo := rest } : SerialPortStream).perform task = some (s', out)) :
    Advances k s .proceed out s' := by
  cases task with
  | call output kind =>
    cases hstep
    refine .moved rfl rfl rfl rfl rfl rfl ?_ ?_ (fun port => ?_) (fun port => ?_) rfl rfl rfl
    · show (Task.outside kind :: rest).any Task.fails = s.todo.any Task.fails
      rw [htodo]
      rfl
    · simp only [SerialPortStream.load, first, htodo, called, List.map_cons, List.map_nil, List.sum_cons, List.sum_nil,
        List.cons_append, List.nil_append, Task.weight]
      omega
    · show [output].countP (Output.closed port) + ((Task.outside kind :: rest).countP (Task.closed port) +
        if s.port = some port then 1 else 0) = s.todo.countP (Task.closed port) + if s.port = some port then 1 else 0
      rw [htodo, List.countP_cons, List.countP_cons, List.countP_cons, List.countP_nil,
        show Task.closed port (.call output kind) = Output.closed port output from rfl,
        show Task.closed port (.outside kind) = false from rfl]
      simp only [Bool.false_eq_true, if_false]
      omega
    · show (Task.outside kind :: rest).countP (Task.closes port) + _ = s.todo.countP (Task.closes port) + _
      rw [htodo, List.countP_cons, List.countP_cons]
      rfl
  | outside kind => cases hstep
  | resume =>
    cases hstep
    exact .light (.popped k htodo fun _ => rfl) (_resumeIO_light k _) rfl rfl rfl fun shut h =>
      h.popped htodo (fun _ => rfl) fun _ => rfl
  | resumeRead =>
    cases hstep
    exact .light (.popped k htodo fun _ => rfl) (resumeRead_light k _) rfl rfl rfl fun shut h =>
      h.popped htodo (fun _ => rfl) fun _ => rfl
  | cancelOpen port cb =>
    cases hstep
    refine .moved rfl rfl rfl rfl rfl rfl ?_ ?_ (fun p => ?_) (fun p => ?_) rfl rfl rfl
    · show rest.any Task.fails = s.todo.any Task.fails
      rw [htodo]
      rfl
    · simp only [SerialPortStream.load, first, htodo, called, List.map_cons, List.map_nil, List.sum_cons, List.sum_nil,
        List.cons_append, List.nil_append, Task.weight, Output.weight, Kind.weight]
      omega
    · show 0 + (rest.countP (Task.closed p) + _) = s.todo.countP (Task.closed p) + _
      rw [htodo, Nat.zero_add]
      rfl
    · show (Task.call (.close port) (.canceling port cb) :: rest).countP (Task.closes p) + _ =
        s.todo.countP (Task.closes p) + _
      rw [htodo, List.countP_cons, List.countP_cons]
      rfl
  | openFailed error cb =>
    cases hstep
    refine .steady (.popped k htodo fun _ => rfl) (openFailed_steady _ error cb) rfl rfl rfl fun shut h => ?_
    refine openFailed_sane (fun hclosing => h.popped htodo (fun _ => rfl) fun hc => ?_) error cb
    exact absurd (show s.closing = true from hc) (by rw [show s.closing = false from hclosing]; exact Bool.false_ne_true)
  | destroy error =>
    cases hstep
    -- `_destroy` runs for a call from outside
    have hwaits : ({ s with todo := rest } : SerialPortStream).waits := waits_of_destroy (htodo ▸ hs.orderly)
    have hpop : Taken k 0 [] s { s with todo := rest } := .popped k htodo fun _ => rfl
    exact .steady (hpop.output rfl fun _ => rfl) (tearDown_steady _ error fun _ => hwaits) rfl rfl rfl fun shut h =>
      tearDown_sane (h.popped htodo (fun _ => rfl) fun _ => rfl) error fun _ => hwaits
  | catchOpen =>
    cases hstep
    exact .light (.popped k htodo fun _ => rfl) (.refl k _) rfl rfl rfl fun shut h =>
      h.popped htodo (fun _ => rfl) fun _ => rfl

theorem awaits_erased {index : ℕ} {promise : Promise} (hpromise : s.promises[index]? = some promise) (port : ℕ) :
    s.awaits port = ({ s with promises := s.promises.eraseIdx index } : SerialPortStream).awaits port +
      if promise.closes port then 1 else 0 := by
  obtain ⟨before, after, heq, herase⟩ := eq_of_getElem? hpromise
  show s.todo.countP (Task.closes port) + s.promises.countP (Promise.closes port) =
    s.todo.countP (Task.closes port) + (s.promises.eraseIdx index).countP (Promise.closes port) + _
  rw [herase, heq, List.countP_append, List.countP_append, List.countP_cons]
  omega

theorem openings_erased {index : ℕ} {cb : Option Callback} (hpromise : s.promises[index]? = some (.opening cb))
    (h : s.openings = if s.opening then 1 else 0) :
    ({ s with promises := s.promises.eraseIdx index } : SerialPortStream).openings = 0 ∧ s.opening := by
  obtain ⟨before, after, heq, herase⟩ := eq_of_getElem? hpromise
  have hone : s.openings = (s.promises.eraseIdx index).countP Promise.opens + 1 := by
    show s.promises.countP Promise.opens = _
    rw [herase, heq, List.countP_append, List.countP_append, List.countP_cons_of_pos rfl]
    omega
  rw [hone] at h
  split at h
  · exact ⟨Nat.succ.inj h, ‹_›⟩
  · cases h

/-- A port that was handed over is closed at once if the stream is closing; else its callbacks are called. -/
theorem opened_light (s : SerialPortStream) (port : ℕ) (isOpen : Bool) (cb : Option Callback) :
    (s.closing ∧ Light k 0 ((s.connect port isOpen).first [.cancelOpen port cb, .catchOpen]) (s.opened port isOpen cb)) ∨
    (s.closing = false ∧ Light k (weigh k cb) (s.connect port isOpen) (s.opened port isOpen cb)) := by
  unfold opened
  simp only
  split
  · rename_i hclosing
    exact .inl ⟨hclosing, _failWaitingWrite_light k _ _⟩
  · rename_i hclosing
    refine .inr ⟨Bool.not_eq_true _ ▸ hclosing, ?_⟩
    have hlight : ∀ task ∈ Task.call .emitOpen .listener :: (cb.toList.map (callback none) ++ [.resume, .catchOpen]),
        task.Light := by
      intro task hmem
      rcases List.mem_cons.1 hmem with rfl | hmem
      · exact ⟨fun _ => rfl, fun _ => rfl, rfl⟩
      rcases List.mem_append.1 hmem with hmem | hmem
      · obtain ⟨cb, -, rfl⟩ := List.mem_map.1 hmem
        exact callback_light none cb
      · simp only [List.mem_cons, List.not_mem_nil, or_false] at hmem
        rcases hmem with rfl | rfl <;> exact ⟨fun _ => rfl, fun _ => rfl, rfl⟩
    have hfirst := Light.first k (s.connect port isOpen) _ hlight
    have hweight : ((Task.call .emitOpen .listener :: (cb.toList.map (callback none) ++ [.resume, .catchOpen])).map
        (Task.weight k)).sum = weigh k cb := by
      cases cb with
      | none => rfl
      | some cb => cases cb <;> simp [callback, weigh, Task.weight, Output.weight, Kind.weight, Callback.weight]
    rw [hweight] at hfirst
    exact hfirst

/-- A port that was not known becomes the present one; if the stream is closing, its close is outstanding. -/
theorem Advances.connected {index port : ℕ} {isOpen : Bool} (hlight : Light k n s₁ s') (hbusy : s.opening)
    (hopening : s₁.opening = false) (hclosing : s₁.closing = s.closing) (hport : s₁.port = some port)
    (hports : s₁.ports port = isOpen) (hcallbacks : s₁._closeCallbacks = s._closeCallbacks) (hopenings : s₁.openings = 0)
    (hload : s₁.load k + n = s.load k) (hcloses : ∀ p, s₁.closes p ≤ s.closes p + [port].count p)
    (hawaits : ∀ p, s₁.awaits p = s.awaits p + if s.closing && port = p then 1 else 0) :
    Advances k s (.settle index (.port port isOpen)) [] s' := by
  refine ⟨fun _ => ?_, ?_, fun p => ?_, fun p hknown => ?_, fun shut hfresh hs => hlight.sane ?_, .inr (.inr hbusy)⟩
  · rw [hlight.openings, hlight.opening, hopenings, hopening]
    rfl
  · rw [hlight.load, ← hload]
    exact Nat.zero_add _
  · rw [hlight.closes]
    exact (Nat.zero_add _).trans_le (hcloses p)
  · rw [hlight.port, hlight.awaits, hport, hawaits] at hknown
    rcases hknown with hp | hpos
    · exact .inr (List.mem_singleton.2 (Option.some.inj hp).symm)
    · split at hpos
      · rename_i hboth
        rw [Bool.and_eq_true, decide_eq_true_eq] at hboth
        exact .inr (List.mem_singleton.2 hboth.2.symm)
      · exact .inl (.inr hpos)
  · have hnone : s.awaits port = 0 := (hfresh port (List.mem_singleton_self port)).2
    have hone : s₁.awaits port = if s.closing then 1 else 0 := by
      rw [hawaits, hnone, Nat.zero_add]
      simp
    have hof {p : ℕ} (hp : s₁.port = some p) : port = p := Option.some.inj (hport.symm.trans hp)
    refine ⟨fun hc => .inr (.inr ⟨port, hport, ?_⟩), fun hc => ?_, fun p hp => ?_, fun p hp => ?_, fun ho => ?_⟩
    · rw [hclosing] at hc
      rw [hone, if_pos hc]
      exact Nat.one_pos
    · rw [hclosing]
      exact hs.callbacks (hcallbacks ▸ hc)
    · obtain rfl := hof hp
      rw [hone, hclosing, hopening, Bool.not_false, Bool.and_true]
    · obtain rfl := hof hp
      cases isOpen with
      | true => exact .inl hports
      | false => exact .inr (.inl (List.mem_append_right _ (List.mem_singleton_self port)))
    · rw [hopening] at ho
      cases ho

/-- **A port is handed over.** -/
theorem opened_advances {index : ℕ} {cb : Option Callback} (hpromise : s.promises[index]? = some (.opening cb))
    (hopens : s.openings = if s.opening then 1 else 0) (htodo : s.todo = []) (port : ℕ) (isOpen : Bool) :
    Advances k s (.settle index (.port port isOpen)) []
      (({ s with promises := s.promises.eraseIdx index } : SerialPortStream).opened port isOpen cb) := by
  obtain ⟨hnone, hbusy⟩ := openings_erased hpromise hopens
  have hload := load_erased k hpromise
  have hawaits (p : ℕ) : ({ s with promises := s.promises.eraseIdx index } : SerialPortStream).awaits p = s.awaits p :=
    (awaits_erased hpromise p).symm
  have hports : (({ s with promises := s.promises.eraseIdx index } : SerialPortStream).connect port isOpen).ports port =
      isOpen := if_pos rfl
  have hcount (p : ℕ) : (if some port = some p then 1 else 0) ≤ s.closes p + [port].count p := by
    rw [List.count_singleton]
    simp only [Option.some.injEq, beq_iff_eq]
    omega
  obtain ⟨hclosing, hlight⟩ | ⟨hclosing, hlight⟩ :=
    opened_light (k := k) { s with promises := s.promises.eraseIdx index } port isOpen cb
  · have hclosing : s.closing = true := hclosing
    refine .connected hlight hbusy rfl rfl rfl hports rfl hnone ?_ (fun p => ?_) fun p => ?_
    · rw [load_first]
      show ((weigh k cb + (0 + 0)) + ({ s with promises := s.promises.eraseIdx index } : SerialPortStream).load k) + 0 =
        s.load k
      rw [← hload, show Promise.weight k (.opening cb) = weigh k cb from rfl]
      omega
    · show ([Task.cancelOpen port cb, .catchOpen] ++ s.todo).countP (Task.closed p) + _ ≤ _
      rw [htodo]
      exact (Nat.zero_add _).trans_le (hcount p)
    · rw [← hawaits p, hclosing, Bool.true_and]
      show ([Task.cancelOpen port cb, .catchOpen] ++ s.todo).countP (Task.closes p) +
        (s.promises.eraseIdx index).countP (Promise.closes p) =
        s.todo.countP (Task.closes p) + (s.promises.eraseIdx index).countP (Promise.closes p) + _
      rw [htodo, List.append_nil, List.countP_cons, show Task.closes p (.cancelOpen port cb) = decide (port = p) from rfl]
      show 0 + _ + _ = 0 + _ + _
      omega
  · have hclosing : s.closing = false := hclosing
    refine .connected hlight hbusy rfl rfl rfl hports rfl hnone ?_ (fun p => ?_) fun p => ?_
    · exact hload
    · show s.todo.countP (Task.closed p) + _ ≤ _
      rw [htodo]
      exact (Nat.zero_add _).trans_le (hcount p)
    · rw [hclosing, Bool.false_and]
      exact hawaits p

/-- **An open fails.**  If the stream is closing, the failed open ends that. -/
theorem rejected_advances {index : ℕ} {cb : Option Callback} (hpromise : s.promises[index]? = some (.opening cb))
    (hopens : s.openings = if s.opening then 1 else 0) (reason : Thrown) :
    Advances k s (.settle index (.rejected reason)) []
      (({ s with promises := s.promises.eraseIdx index } : SerialPortStream).rejected reason cb) := by
  obtain ⟨hnone, hbusy⟩ := openings_erased hpromise hopens
  have hlight : Light k 0 (({ s with promises := s.promises.eraseIdx index, _opening := false, opening := false } :
      SerialPortStream).first [.openFailed (asError reason) cb, .catchOpen])
      (({ s with promises := s.promises.eraseIdx index } : SerialPortStream).rejected reason cb) :=
    _failWaitingWrite_light k _ (asError reason)
  have hawaits (p : ℕ) : (({ s with promises := s.promises.eraseIdx index, _opening := false, opening := false } :
      SerialPortStream).first [.openFailed (asError reason) cb, .catchOpen]).awaits p = s.awaits p := by
    rw [awaits_erased hpromise p]
    rfl
  refine ⟨fun _ => ?_, ?_, fun p => ?_, fun p hknown => .inl ?_, fun shut _ hs => ?_, .inr (.inl hlight.port)⟩
  · rw [hlight.openings, hlight.opening]
    exact hnone
  · rw [hlight.load, load_first, ← load_erased k hpromise]
    show 0 + (weigh k cb + (0 + 0) + _ + 0) = _ + weigh k cb + 0
    rw [Nat.zero_add, Nat.add_comm (weigh k cb + _)]
    rfl
  · rw [hlight.closes]
    exact (Nat.zero_add _).le
  · rw [show SerialPortStream.port _ = _ from hlight.port, show SerialPortStream.awaits p _ = _ from hlight.awaits p,
      hawaits] at hknown
    exact hknown
  · rw [show Input.shut (.settle index (.rejected reason)) = [] from rfl, List.append_nil]
    refine hlight.sane ⟨fun _ => .inr (.inl rfl), hs.callbacks, fun p hp => ?_, fun p hp => ?_, fun hno => ?_⟩
    · rw [hawaits]
      have honce := hs.once p hp
      rw [hbusy, Bool.not_true, Bool.and_false] at honce
      exact honce.trans (Nat.zero_le _)
    · rw [hawaits]
      exact hs.closed p hp
    · cases hno

theorem Sane.settled (h : Sane shut s) {index port : ℕ} {promise : Promise} (hpromise : s.promises[index]? = some promise)
    (hcloses : ∀ p, promise.closes p = decide (port = p)) :
    (s.port ≠ some port → Sane shut { s with promises := s.promises.eraseIdx index }) ∧
    (s.port = some port →
      ({ s with promises := s.promises.eraseIdx index } : SerialPortStream).awaits port = 0 ∧ s.opening = false) := by
  refine h.settles { s with promises := s.promises.eraseIdx index } port rfl rfl rfl rfl rfl id fun p => ?_
  rw [awaits_erased hpromise p, hcloses]
  simp only [decide_eq_true_eq]

theorem Advances.settled {index : ℕ} {promise : Promise} {input : Input} (hpromise : s.promises[index]? = some promise)
    (hplain : promise.Light) (hissues : input.issues k = 0) (hports : input.ports = []) (hshut : input.shut = [])
    (hsteady : Steady k (promise.weight k) { s with promises := s.promises.eraseIdx index } s')
    (hsane : ∀ shut, Sane shut { s with promises := s.promises.eraseIdx index } → Sane shut s') :
    Advances k s input [] s' := by
  refine .steady (.erased k hpromise hplain.opens) hsteady ?_ hports hshut fun shut h => ?_
  · rw [hissues, Nat.add_zero]
  · exact hsane shut (h.erased hpromise hplain.closes)

theorem settled_advances (hs : Sound false s) (hopens : s.openings = if s.opening then 1 else 0) (htodo : s.todo = [])
    {index : ℕ} {promise : Promise} {result : Result} (hpromise : s.promises[index]? = some promise)
    (hstep : ({ s with promises := s.promises.eraseIdx index } : SerialPortStream).settled promise result = some s') :
    Advances k s (.settle index result) [] s' := by
  have happart : Apart { s with promises := s.promises.eraseIdx index } := hs.apart rfl
  have hcanceled {port : ℕ} {cb : Option Callback} (hcanceling : promise = .canceling port cb) (error : Option Thrown)
      (hnone : Input.issues k (.settle index result) = 0) (hports : Input.ports (.settle index result) = [])
      (hshut : Input.shut (.settle index result) = []) : Advances k s (.settle index result) []
        ((({ s with promises := s.promises.eraseIdx index } : SerialPortStream).first [.catchOpen]).canceled port cb error) := by
    subst hcanceling
    have hcatch (k : ℕ) : Light k 0 { s with promises := s.promises.eraseIdx index }
        (({ s with promises := s.promises.eraseIdx index } : SerialPortStream).first [.catchOpen]) := by
      refine Light.first k _ [.catchOpen] fun task hmem => ?_
      rw [List.mem_singleton.1 hmem]
      exact ⟨fun _ => rfl, fun _ => rfl, rfl⟩
    refine .steady (.erased k hpromise rfl) ((hcatch k).steady.trans (canceled_steady _ port cb error)) ?_ hports hshut
      fun shut h => ?_
    · rw [hnone]
      exact Nat.zero_add _
    · obtain ⟨hother, hsame⟩ := h.settled hpromise (fun p => (rfl : _ = decide (port = p)))
      refine canceled_sane (fun hport => (hcatch 0).sane (hother hport)) (fun hport => ?_) cb error
      rw [(hcatch 0).awaits]
      exact hsame hport
  cases settled_settles hstep with
  | opened => exact opened_advances hpromise hopens htodo _ _
  | rejected => exact rejected_advances hpromise hopens _
  | @closed port error =>
    have hsettled {shut : List ℕ} (h : Sane shut s) := h.settled hpromise (fun p => (rfl : _ = decide (port = p)))
    exact .steady (.erased k hpromise rfl) (closed_steady _ port _) rfl rfl rfl fun shut h =>
      closed_sane (hsettled h).1 _
  | @closeFailed port error reason =>
    have hsettled {shut : List ℕ} (h : Sane shut s) := h.settled hpromise (fun p => (rfl : _ = decide (port = p)))
    exact .steady (.erased k hpromise rfl) (_closeFailed_steady _ port reason) rfl rfl rfl fun shut h =>
      _closeFailed_sane (hsettled h).1 (hsettled h).2 reason
  | canceled => exact hcanceled rfl none rfl rfl rfl
  | cancelFailed => exact hcanceled rfl _ rfl rfl rfl
  | @written port write =>
    have hlight (k : ℕ) := call_light k { s with promises := s.promises.eraseIdx index }
      (.written write none) rfl (fun _ => rfl) (rfl : Kind.listener.cancels = false)
    exact .settled hpromise ⟨fun _ => rfl, rfl⟩ rfl rfl rfl (hlight k).steady fun shut => (hlight 0).sane
  | @writeFailed port write reason =>
    exact .settled hpromise ⟨fun _ => rfl, rfl⟩ rfl rfl rfl (_writeError_steady happart port write reason) fun shut h =>
      _writeError_sane h happart port write reason
  | @data port length data | @bytesRead port length _ _ data =>
    exact .settled hpromise ⟨fun _ => rfl, rfl⟩ rfl rfl rfl (received_light k _ port length data).steady
      fun shut h => (received_light 0 _ port length data).sane h
  | @invalid port length _ _ reason | @readFailed port length reason =>
    exact .settled hpromise ⟨fun _ => rfl, rfl⟩ rfl rfl rfl (_readError_steady happart port reason length)
      fun shut h => _readError_sane h happart port reason length
  | @operated port operation baudRate cb =>
    exact .settled hpromise ⟨fun _ => rfl, rfl⟩ rfl rfl rfl (operated_light k _ port operation baudRate cb).steady
      fun shut h => (operated_light 0 _ port operation baudRate cb).sane h
  | @operationFailed port operation baudRate cb reason =>
    exact .settled hpromise ⟨fun _ => rfl, rfl⟩ rfl rfl rfl (_report_light k _ (asError reason) cb).steady
      fun shut h => (_report_light 0 _ (asError reason) cb).sane h
  | @reported reason =>
    exact .settled hpromise ⟨fun _ => rfl, rfl⟩ rfl rfl rfl (_report_light k _ (asError reason) none).steady
      fun shut h => (_report_light 0 _ (asError reason) none).sane h

theorem tick_advances {message : String} {cb : Option Callback} {rest : List (String × Option Callback)}
    (hticks : s.ticks = (message, cb) :: rest) :
    Advances k s .tick [] (({ s with ticks := rest } : SerialPortStream)._report { message := message } cb) := by
  have htaken : Taken k (weigh k cb) [] s { s with ticks := rest } := by
    refine ⟨rfl, rfl, rfl, ?_, fun _ => Nat.zero_add _, fun _ => le_rfl⟩
    simp only [SerialPortStream.load, hticks, List.map_cons, List.sum_cons, called, List.map_nil, List.sum_nil]
    omega
  exact .light htaken (_report_light k _ _ cb) rfl rfl rfl fun shut h =>
    h.transfer rfl rfl rfl rfl rfl (fun _ => id) fun _ _ => rfl

theorem isOpen_advances {port : ℕ} {value : Bool} (hhonest : s.Honest (.isOpen port value)) :
    Advances k s (.isOpen port value) [] (s.setOpen port value) := by
  refine .steady (.refl k s) (setOpen_steady s port value) rfl rfl rfl fun shut h => ?_
  refine ⟨h.awaited, h.callbacks, h.once, fun p hp => ?_, h.replaced⟩
  by_cases hsame : p = port
  · exact .inr (.inr (hsame ▸ hhonest (hsame ▸ hp)))
  · refine (h.closed p hp).imp_left fun hopen => ?_
    show (if p = port then value else s.ports p) = true
    rw [if_neg hsame]
    exact hopen

/-- **The step lemma.** -/
theorem step_advances (hs : Sound false s) (hopens : s.openings = if s.opening then 1 else 0) {input : Input}
    (hhonest : s.Honest input) (hstep : s.step input = some (s', out)) : Advances k s input out s' := by
  cases step_runs hstep with
  | enter hwaits hentry => exact enter_advances hwaits hentry
  | returns htodo => exact returned_advances htodo
  | throws reason htodo => exact thrown_advances hs htodo hhonest
  | proceed htodo htask => exact perform_advances hs htodo htask
  | settle htodo hpromise hsettled => exact settled_advances hs hopens htodo hpromise hsettled
  | tick htodo hticks => exact tick_advances hticks
  | isOpen => exact isOpen_advances hhonest

end NodeSerialport.Stream
