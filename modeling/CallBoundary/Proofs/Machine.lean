import CallBoundary.Proofs.Launches
import CallBoundary.Proofs.Traces
import Mathlib.Computability.StateTransition
/-! Runs on a stack. The machine has no room of its own to use up: it holds the frames that wait for the one on
top, and looks at how many they are when that one calls. Each of its steps is one of a single frame, opens a
frame or closes one; a run of frames inside frames is a finite number of them. -/
namespace CallBoundary

variable {ν E : Type}

abbrev Resumption (ν : Type) := Except Fault Outcome → Program ν (Option Bytes)

-- A frame that waits for the one it called. Its environment is the one below the callee's.
structure Suspended (ν : Type) where
  invocation : Invocation
  activation : Activation
  next : Resumption ν
  meter : Meter
  reports : List Report
  trace : Trace ν

structure Machine (ν E : Type) where
  waiting : List (Suspended ν)
  rest : Program ν (Option Bytes)
  frame : Frame E
  trace : Trace ν

namespace Ending

def program : Ending → Program ν (Option Bytes)
  | returned output => .ret output
  | faulted fault => .raise fault
  | panicked text => .panic text

end Ending

namespace Invocation

def program (next : Resumption ν) : Invocation → Program ν (Option Bytes)
  | call c => .perform (.call c) next
  | deploy d => .perform (.deploy d) next

end Invocation

namespace Machine

def depth (m : Machine ν E) : Nat := m.waiting.length

def goOn (m : Machine ν E) (rest : Program ν (Option Bytes)) (frame : Frame E) (items : Trace ν) : Machine ν E :=
  { m with rest, frame, trace := m.trace ++ items }

variable [Host E] (b : Boundary ν)

def level (m : Machine ν E) : Level ν E := b.level 0 m.depth

def resume (m : Machine ν E) (ending : Ending) : Option (Machine ν E) :=
  match m.waiting with
  | [] => none
  | caller :: waiting =>
    let callee : Finished ν E := ⟨m.frame, ending, m.trace⟩
    let (result, host, commitFault) := Frame.close callee
    let report := callee.report caller.invocation.attempt caller.activation.gasLimit result
    let answer := .ok (Outcome.ofReport caller.activation.contract report result)
    some ⟨waiting, caller.next answer, Frame.record ⟨host, caller.meter, caller.reports⟩ report,
      caller.trace ++ [.ran (waiting.length + 1) caller.activation m.trace ending m.frame.meter commitFault,
        caller.invocation.performed answer]⟩

def enter (m : Machine ν E) (i : Invocation) (next : Resumption ν) (activation : Activation) : Machine ν E :=
  let caller := i.addressed m.frame
  let deployment := activation.entry = .constructor
  match Host.derive caller.host activation.contract i.amount deployment with
  | (.error fault, host) =>
    let (outcome, after) := { caller with host }.reject i.attempt activation.contract (Failure.ofFault fault)
    m.goOn (next (.ok outcome)) after [.underivable activation.contract fault, i.performed (.ok outcome)]
  | (.ok (), child) =>
    { waiting := ⟨i, activation, next, caller.meter, caller.reports, m.trace⟩ :: m.waiting
      rest := b.interpreter activation
      frame := Frame.ofLimit (if deployment then Host.register child activation.code else child) activation.gasLimit
      trace := [] }

def entering? (m : Machine ν E) (i : Invocation) : Option Activation :=
  if m.depth < b.settings.maxCallDepth.toNat then i.admitted? (m.level b) m.frame else none

def invoke (m : Machine ν E) (i : Invocation) (next : Resumption ν) : Machine ν E :=
  match m.entering? b i with
  | some activation => m.enter b i next activation
  | none =>
    let (answer, after, inside) := i.perform (m.level b) m.frame
    m.goOn (next answer) after (inside ++ [i.performed answer])

def advance (m : Machine ν E) : Option (Machine ν E) :=
  match m.rest with
  | .ret output => m.resume (.returned output)
  | .raise fault => m.resume (.faulted fault)
  | .panic text => m.resume (.panicked text)
  | .note n next => some (m.goOn next m.frame [.noted n])
  | .perform (.call c) next => some (m.invoke b (.call c) next)
  | .perform (.deploy d) next => some (m.invoke b (.deploy d) next)
  | .perform op next =>
    let (answer, after, inside) := m.frame.step (m.level b) op
    some (m.goOn (next answer) after (inside ++ [.performed op answer]))

end Machine

/-! Invocations from two levels. -/

namespace Invocation

variable [Host E] {f : Frame E} {i : Invocation} {activation : Activation}

theorem performUnadmitted {level : Level ν E} (absent : i.admitted? level f = none) (other : Level ν E) :
    i.perform other f = i.perform level f := by
  rcases unadmittedEnds absent with ⟨fault, meter, -, ends⟩ | ⟨contract, failure, meter, ends⟩
  · rw [ends, ends]
  · rw [ends, ends]

theorem admittedAlike {level other : Level ν E} (same : other.settings = level.settings) :
    i.admitted? other f = i.admitted? level f := by
  cases i with
  | call c => simp only [admitted?, same]
  | deploy d => simp only [admitted?, same]

end Invocation

namespace Boundary

variable [Host E] (b : Boundary ν)

theorem levelSettings (room depth : Nat) : (b.level room depth : Level ν E).settings = b.settings := by
  cases room <;> rfl

end Boundary

namespace Machine

open StateTransition

variable [Host E] {b : Boundary ν}

def ended (waiting : List (Suspended ν)) (before : Trace ν) (finished : Finished ν E) : Machine ν E :=
  ⟨waiting, finished.ending.program, finished.toFrame, before ++ finished.trace⟩

theorem advanceEnded (waiting : List (Suspended ν)) (before : Trace ν) (finished : Finished ν E) :
    (ended waiting before finished).advance b = (ended waiting before finished).resume finished.ending := by
  obtain ⟨frame, ending, trace⟩ := finished
  cases ending <;> rfl

theorem advanceInvocation (waiting : List (Suspended ν)) (i : Invocation) (next : Resumption ν) (f : Frame E)
    (t : Trace ν) :
    advance b ⟨waiting, i.program next, f, t⟩ = some (invoke b ⟨waiting, i.program next, f, t⟩ i next) := by
  cases i <;> rfl

def Reaching (b : Boundary ν) (E : Type) [Host E] (room : Nat) (waiting : List (Suspended ν)) : Prop :=
  ∀ (op : Operation) (next : op.Answer → Program ν (Option Bytes)) (f : Frame E) (t : Trace ν),
    let stepped := f.step (b.level room waiting.length) op
    Reaches (advance b) ⟨waiting, .perform op next, f, t⟩
      ⟨waiting, next stepped.1, stepped.2.1, t ++ (stepped.2.2 ++ [.performed op stepped.1])⟩

theorem execReaches {room : Nat} {waiting : List (Suspended ν)} (reaching : Reaching b E room waiting)
    (p : Program ν (Option Bytes)) (f : Frame E) (t : Trace ν) :
    Reaches (advance b) ⟨waiting, p, f, t⟩ (ended waiting t (p.exec (b.level room waiting.length) f)) := by
  induction p generalizing f t with
  | ret output | raise fault | panic text =>
    simp only [Program.exec, ended, List.append_nil]
    exact .refl
  | note n next ih =>
    have later := ih f (t ++ [.noted n])
    simp only [ended, List.append_assoc, List.singleton_append] at later
    exact .head rfl later
  | perform op next ih =>
    have here := reaching op next f t
    have later := ih (f.step (b.level room waiting.length) op).1 (f.step (b.level room waiting.length) op).2.1
      (t ++ ((f.step (b.level room waiting.length) op).2.2 ++ [.performed op (f.step (b.level room waiting.length) op).1]))
    simp only [ended, List.append_assoc, List.singleton_append] at here later
    exact here.trans later

theorem enteringSome {m : Machine ν E} {i : Invocation} {activation : Activation} :
    m.entering? b i = some activation ↔
      m.depth < b.settings.maxCallDepth.toNat ∧ i.admitted? (m.level b) m.frame = some activation := by
  unfold entering?
  split
  · rename_i deeper
    simp only [deeper, true_and]
  · rename_i shallow
    simp only [shallow, false_and, reduceCtorEq]

inductive Advanced (b : Boundary ν) (m : Machine ν E) : Machine ν E → Prop
  | noted (n : ν) (next : Program ν (Option Bytes)) (issued : m.rest = .note n next) :
      Advanced b m (m.goOn next m.frame [.noted n])
  | performed (op : Operation) (next : op.Answer → Program ν (Option Bytes)) (issued : m.rest = .perform op next) :
      Advanced b m (m.goOn (next (m.frame.step (m.level b) op).1) (m.frame.step (m.level b) op).2.1
        ((m.frame.step (m.level b) op).2.2 ++ [.performed op (m.frame.step (m.level b) op).1]))
  | underivable (i : Invocation) (next : Resumption ν) {activation : Activation} {fault : Fault} {host : E}
      (issued : m.rest = i.program next) (entering : m.entering? b i = some activation)
      (refused : Host.derive m.frame.host activation.contract i.amount (activation.entry = .constructor) =
        (.error fault, host)) :
      Advanced b m (m.goOn (next (.ok (Outcome.ofRejection activation.contract i.attempt (Failure.ofFault fault))))
        ({ i.addressed m.frame with host }.record (Report.ofRejection i.attempt (Failure.ofFault fault)))
        [.underivable activation.contract fault,
          i.performed (.ok (Outcome.ofRejection activation.contract i.attempt (Failure.ofFault fault)))])
  | entered (i : Invocation) (next : Resumption ν) {activation : Activation} {child : E}
      (issued : m.rest = i.program next) (entering : m.entering? b i = some activation)
      (opened : activation.opened? m.frame.host i.amount = some child) :
      Advanced b m ⟨⟨i, activation, next, (i.addressed m.frame).meter, (i.addressed m.frame).reports, m.trace⟩ :: m.waiting,
        b.interpreter activation, Frame.ofLimit child activation.gasLimit, []⟩
  | returned {after : Machine ν E} (ending : Ending) (ended : m.rest = ending.program)
      (resumed : m.resume ending = some after) : Advanced b m after

theorem resumeCases {m after : Machine ν E} {ending : Ending} (resumed : m.resume ending = some after) :
    ∃ caller, m.waiting = caller :: after.waiting ∧ after.frame.host = (Frame.close ⟨m.frame, ending, m.trace⟩).2.1 := by
  unfold resume at resumed
  cases waits : m.waiting with
  | nil =>
    rw [waits] at resumed
    cases resumed
  | cons caller waiting =>
    rw [waits] at resumed
    cases resumed
    exact ⟨caller, rfl, rfl⟩

theorem invokeAdvanced {m : Machine ν E} {i : Invocation} {next : Resumption ν} (issued : m.rest = i.program next) :
    Advanced b m (m.invoke b i next) := by
  unfold invoke
  cases entering : m.entering? b i with
  | none =>
    cases i with
    | call c => exact .performed (.call c) next issued
    | deploy d => exact .performed (.deploy d) next issued
  | some activation =>
    obtain ⟨meter, charged⟩ := i.addressedCharges m.frame
    have host : (i.addressed m.frame).host = m.frame.host := by rw [charged]
    simp only [enter, host]
    cases derived : Host.derive m.frame.host activation.contract i.amount (activation.entry = .constructor) with
    | mk answer child =>
      cases answer with
      | error fault => exact .underivable i next issued entering derived
      | ok _ =>
        refine .entered i next issued entering ?_
        simp only [Activation.opened?, derived]

theorem advanceCases {m after : Machine ν E} (advanced : m.advance b = some after) : Advanced b m after := by
  obtain ⟨waiting, rest, f, t⟩ := m
  cases rest with
  | ret output => exact .returned (.returned output) rfl advanced
  | raise fault => exact .returned (.faulted fault) rfl advanced
  | panic text => exact .returned (.panicked text) rfl advanced
  | note n next =>
    cases advanced
    exact .noted n next rfl
  | perform op next =>
    cases op with
    | call c =>
      cases advanced
      exact invokeAdvanced (i := .call c) rfl
    | deploy d =>
      cases advanced
      exact invokeAdvanced (i := .deploy d) rfl
    | query _ | update _ | ask _ | consumeGas _ | setGasLimit _ | commit =>
      cases advanced
      exact .performed _ next rfl

variable {room : Nat} {waiting : List (Suspended ν)}

theorem invokeReaches (fits : waiting.length + room = b.settings.maxCallDepth.toNat)
    (below : ∀ inner, room = inner + 1 → ∀ caller, Reaching b E inner (caller :: waiting))
    (i : Invocation) (next : Resumption ν) (f : Frame E) (t : Trace ν) :
    let performed := i.perform (b.level room waiting.length) f
    Reaches (advance b) ⟨waiting, i.program next, f, t⟩
      ⟨waiting, next performed.1, performed.2.1, t ++ (performed.2.2 ++ [i.performed performed.1])⟩ := by
  intro performed
  have first := advanceInvocation (b := b) waiting i next f t
  cases entering : entering? b ⟨waiting, i.program next, f, t⟩ i with
  | none =>
    -- Nothing is opened: either there is no room for it, or it comes to the same with any room.
    have alone : i.perform (b.level 0 waiting.length) f = performed := by
      cases room with
      | zero => rfl
      | succ inner =>
        have deeper : waiting.length < b.settings.maxCallDepth.toNat := by omega
        exact (Invocation.performUnadmitted ((if_pos deeper).symm.trans entering) _).symm
    simp only [invoke, entering, level, depth, alone] at first
    exact .single first
  | some activation =>
    obtain ⟨deeper, admitted⟩ := enteringSome.mp entering
    simp only [invoke, entering, enter] at first
    cases room with
    | zero => exact absurd deeper (Nat.not_lt_of_le (Nat.le_of_eq fits.symm))
    | succ inner =>
      have also := (Invocation.admittedAlike (b.levelSettings (inner + 1) waiting.length)).trans admitted
      have entered : performed = _ := Invocation.performEntered also
      refine .head first ?_
      rw [entered]
      simp only [Frame.enter, Boundary.level]
      cases Host.derive (i.addressed f).host activation.contract i.amount (activation.entry = .constructor) with
      | mk answer host =>
        cases answer with
        | error fault => exact .refl
        | ok _ =>
          -- The callee runs on top of the caller, and closing it is the last step.
          refine (execReaches (below inner rfl _) (b.interpreter activation) _ []).tail ?_
          rw [advanceEnded]
          rfl

theorem reachingAbove (fits : waiting.length + room = b.settings.maxCallDepth.toNat)
    (below : ∀ inner, room = inner + 1 → ∀ caller, Reaching b E inner (caller :: waiting)) : Reaching b E room waiting := by
  intro op next f t
  cases op with
  | call c => exact invokeReaches fits below (.call c) next f t
  | deploy d => exact invokeReaches fits below (.deploy d) next f t
  | query _ | update _ | ask _ | consumeGas _ | setGasLimit _ | commit => cases room <;> exact .single rfl

theorem reaching (room : Nat) (waiting : List (Suspended ν))
    (fits : waiting.length + room = b.settings.maxCallDepth.toNat) : Reaching b E room waiting := by
  -- With one frame more waiting there is room for one less, and that is where callees run.
  induction room generalizing waiting with
  | zero => exact reachingAbove fits fun _ other => by cases other
  | succ inner ih =>
    refine reachingAbove fits ?_
    rintro _ ⟨⟩ caller
    exact ih (caller :: waiting) (by rw [List.length_cons]; omega)

end Machine

end CallBoundary
