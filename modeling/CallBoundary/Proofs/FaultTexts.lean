import CallBoundary.Proofs.Outcomes
import CallBoundary.Proofs.Traces
/-! The texts of internal faults and of breakdowns, and what becomes of them. Two interpreters that behave
alike but for these texts, and for which of the two ways they take to break off, cannot be told apart by
any outcome, any frame or any environment, in whatever hosts they run. Only the logs show a difference. -/
namespace CallBoundary

variable {ν : Type}

namespace Program

variable {α : Type}

inductive Breaks : Program ν α → Prop
  | faulted (text : String) : Breaks (.raise (.internal text))
  | panicked (text : Option String) : Breaks (.panic text)

-- The two perform the same operations and leave the same notes, whatever the answers, and they end alike, except
-- that where one breaks off the other may break off in any other way.
inductive Alike : Program ν α → Program ν α → Prop
  | ret (value : α) : Alike (.ret value) (.ret value)
  | raise (fault : Fault) : Alike (.raise fault) (.raise fault)
  | broken {p q : Program ν α} (first : p.Breaks) (second : q.Breaks) : Alike p q
  | note (n : ν) {next other : Program ν α} (rest : Alike next other) : Alike (.note n next) (.note n other)
  | perform (op : Operation) {next other : op.Answer → Program ν α} (rest : ∀ answer, Alike (next answer) (other answer)) :
      Alike (.perform op next) (.perform op other)

end Program

theorem Program.alikeRefl {α : Type} (p : Program ν α) : p.Alike p := by
  induction p with
  | ret value => exact .ret value
  | raise fault => exact .raise fault
  | panic text => exact .broken (.panicked text) (.panicked text)
  | note n next ih => exact .note n ih
  | perform op next ih => exact .perform op ih

def Interpreter.Alike (first second : Interpreter ν) : Prop := ∀ activation, (first activation).Alike (second activation)

namespace Ending

def redacted : Ending → Ending
  | faulted (.internal _) | panicked _ => panicked none
  | ending => ending

theorem redactedResult (ending : Ending) : ending.redacted.result = ending.result := by
  cases ending with
  | returned output => rfl
  | faulted fault => cases fault <;> rfl
  | panicked text => rfl

theorem sameResult {first second : Ending} (same : first.redacted = second.redacted) : first.result = second.result := by
  rw [← redactedResult first, same, redactedResult]

end Ending

def LogLine.redacted : LogLine ν → LogLine ν
  | internalFault contract _ | panicked contract _ => panicked contract unnamedPanic
  | line => line

namespace Trace

mutual
def Item.redacted : Item ν → Item ν
  | .ran depth activation items ending meter commitFault =>
    .ran depth activation (redacted items) ending.redacted meter commitFault
  | item => item

def redacted : List (Item ν) → List (Item ν)
  | [] => []
  | item :: rest => item.redacted :: redacted rest
end

theorem redactedAppend (s t : Trace ν) : redacted (s ++ t) = redacted s ++ redacted t := by
  induction s with
  | nil => rfl
  | cons item rest ih => simp only [List.cons_append, redacted, ih]

theorem redactedEndingLog (contract : Address) (ending : Ending) :
    (LogLine.ofEnding (ν := ν) contract ending).map LogLine.redacted =
      (LogLine.ofEnding contract ending.redacted).map LogLine.redacted := by
  cases ending with
  | returned output => rfl
  | faulted fault => cases fault <;> rfl
  | panicked text => rfl

theorem redactedLog (t : Trace ν) (depth : Nat) :
    (logAll depth t).map LogLine.redacted = (logAll depth (redacted t)).map LogLine.redacted := by
  induction t using nestedInduction generalizing depth with
  | nil => rfl
  | noted n rest ih => simp only [redacted, Item.redacted, logAll, List.map_append, ih]
  | performed op answer rest ih => simp only [redacted, Item.redacted, logAll, List.map_append, ih]
  | underivable contract fault rest ih => simp only [redacted, Item.redacted, logAll, List.map_append, ih]
  | ran inner activation items ending meter commitFault rest inside later =>
    simp only [redacted, Item.redacted, logAll, Item.log, List.map_append, inside inner, later depth,
      redactedEndingLog activation.contract ending]

structure Agree {α β : Type} (first second : α × β × Trace ν) : Prop where
  answer : first.1 = second.1
  after : first.2.1 = second.2.1
  trace : redacted first.2.2 = redacted second.2.2

theorem agreeRefl {α β : Type} (run : α × β × Trace ν) : Agree run run := ⟨rfl, rfl, rfl⟩

end Trace

open Trace

variable {E : Type}

structure Finished.Alike (first second : Finished ν E) : Prop where
  frame : first.toFrame = second.toFrame
  ending : first.ending.redacted = second.ending.redacted
  trace : Trace.redacted first.trace = Trace.redacted second.trace

structure Level.Alike (first second : Level ν E) : Prop where
  depth : first.depth = second.depth
  settings : first.settings = second.settings
  enter : Option.Rel (fun run other => ∀ host activation, (run host activation).Alike (other host activation))
    first.enter second.enter

namespace Finished

variable {first second : Finished ν E}

theorem alikeResult (alike : first.Alike second) : first.result = second.result := by
  have meter : first.meter = second.meter := congrArg Frame.meter alike.frame
  rw [result, result, meter, Ending.sameResult alike.ending]

theorem alikeReport (alike : first.Alike second) (attempt : Attempt) (gasLimit : Gas) (result : Result) :
    first.report attempt gasLimit result = second.report attempt gasLimit result := by
  have meter : first.meter = second.meter := congrArg Frame.meter alike.frame
  have reports : first.reports = second.reports := congrArg Frame.reports alike.frame
  rw [report, report, meter, reports]

end Finished

namespace Frame

variable [Host E] {level other : Level ν E}

theorem alikeClose {callee also : Finished ν E} (alike : callee.Alike also) : close callee = close also := by
  have host : callee.host = also.host := congrArg Frame.host alike.frame
  rw [close, close, Finished.alikeResult alike, host]

theorem enterAgrees (alike : level.Alike other) (f : Frame E) (attempt : Attempt) (amount : Amount)
    (activation : Activation) :
    Agree (f.enter level attempt amount activation) (f.enter other attempt amount activation) := by
  obtain ⟨depth, settings, enter⟩ := level
  obtain ⟨_, _, also⟩ := other
  obtain ⟨rfl, rfl, deeper⟩ := alike
  cases deeper with
  | none => exact agreeRefl _
  | some runs =>
    simp only [Frame.enter]
    cases derived : Host.derive f.host activation.contract amount (activation.entry = .constructor) with
    | mk answer child =>
      cases answer with
      | error fault => exact agreeRefl _
      | ok _ =>
        have callee := runs (if activation.entry = .constructor then Host.register child activation.code else child) activation
        have closed := alikeClose callee
        have meter := congrArg Frame.meter callee.frame
        refine ⟨?_, ?_, ?_⟩
        · simp only [closed, Finished.alikeReport callee]
        · simp only [closed, Finished.alikeReport callee]
        · simp only [redacted, Item.redacted, closed, callee.trace, callee.ending, meter]

theorem callAgrees (alike : level.Alike other) (f : Frame E) (c : Call) : Agree (f.call level c) (f.call other c) := by
  unfold call
  split
  · exact agreeRefl _
  · split
    · exact agreeRefl _
    · rename_i code found
      have entered := enterAgrees alike f c.attempt c.amount (c.activation code level.settings.debug)
      rw [← alike.settings]
      exact ⟨congrArg Except.ok entered.answer, entered.after, entered.trace⟩

theorem deployAgrees (alike : level.Alike other) (f : Frame E) (d : Deployment) :
    Agree (f.deploy level d) (f.deploy other d) := by
  unfold deploy
  split
  · exact agreeRefl _
  · rename_i contract gas paid asked
    split
    · exact agreeRefl _
    · have entered := enterAgrees alike paid d.attempt d.amount (d.activation contract level.settings.debug)
      rw [← alike.settings]
      exact ⟨congrArg Except.ok entered.answer, entered.after, entered.trace⟩

theorem stepAgrees (alike : level.Alike other) (f : Frame E) (op : Operation) :
    Agree (f.step level op) (f.step other op) := by
  cases op with
  | query q => exact agreeRefl _
  | update u => exact agreeRefl _
  | ask p =>
    refine ⟨?_, rfl, rfl⟩
    cases p with
    | depth => exact alike.depth
    | settings => exact alike.settings
    | meter | reports | debug => rfl
  | consumeGas gas => exact agreeRefl _
  | setGasLimit limit => exact agreeRefl _
  | commit =>
    simp only [step, commit, alike.depth]
    exact agreeRefl _
  | call c => exact callAgrees alike f c
  | deploy d => exact deployAgrees alike f d

end Frame

variable [Host E]

theorem Program.execAlike {level other : Level ν E} (levels : level.Alike other) {p q : Program ν (Option Bytes)}
    (alike : p.Alike q) (f : Frame E) : (p.exec level f).Alike (q.exec other f) := by
  induction alike generalizing f with
  | ret value => exact ⟨rfl, rfl, rfl⟩
  | raise fault => exact ⟨rfl, rfl, rfl⟩
  | broken first second => cases first <;> cases second <;> exact ⟨rfl, rfl, rfl⟩
  | note n rest ih =>
    have later := ih f
    exact ⟨later.frame, later.ending, by simp only [exec, redacted, Item.redacted, later.trace]⟩
  | perform op rest ih =>
    have stepped := Frame.stepAgrees levels f op
    have later := ih (f.step level op).1 (f.step level op).2.1
    refine ⟨?_, ?_, ?_⟩
    · simp only [exec, ← stepped.answer, ← stepped.after, later.frame]
    · simp only [exec, ← stepped.answer, ← stepped.after, later.ending]
    · simp only [exec, redactedAppend, redacted, Item.redacted, stepped.trace, ← stepped.answer, ← stepped.after,
        later.trace]

namespace Boundary

variable {b c : Boundary ν}

theorem levelAlike (settings : b.settings = c.settings) (alike : b.interpreter.Alike c.interpreter) (room depth : Nat) :
    (b.level room depth : Level ν E).Alike (c.level room depth) := by
  induction room generalizing depth with
  | zero => exact ⟨rfl, settings, .none⟩
  | succ room ih =>
    refine ⟨rfl, settings, .some ?_⟩
    intro host activation
    exact Program.execAlike (ih (depth + 1)) (alike activation) _

theorem runAgrees (settings : b.settings = c.settings) (alike : b.interpreter.Alike c.interpreter) (host : E)
    (attempt : Attempt) (activation : Activation) :
    Agree (b.run host attempt activation) (c.run host attempt activation) := by
  have top : (b.top : Level ν E).Alike c.top := by
    rw [Boundary.top, Boundary.top, settings]
    exact levelAlike settings alike _ 0
  have finished := Program.execAlike top (alike activation) (Frame.ofLimit host activation.gasLimit)
  have result := Finished.alikeResult finished
  have meter := congrArg Frame.meter finished.frame
  refine ⟨?_, ?_, ?_⟩
  · simp only [run, result, Finished.alikeReport finished]
  · exact congrArg Frame.host finished.frame
  · simp only [run, redacted, Item.redacted, finished.trace, finished.ending, meter]

end Boundary

theorem Launch.runAgrees {b c : Boundary ν} (settings : b.settings = c.settings)
    (alike : b.interpreter.Alike c.interpreter) (host : E) (l : Launch) : Agree (l.run b host) (l.run c host) := by
  cases l with
  | execute contract method args gasLimit =>
    simp only [run, Boundary.execute, settings]
    split
    · exact agreeRefl _
    · exact Boundary.runAgrees settings alike host _ _
  | deploy contract code args gasLimit =>
    simp only [run, Boundary.deploy, settings]
    split
    · exact agreeRefl _
    · exact Boundary.runAgrees settings alike _ _ _

namespace Boundary

/-- No outcome, no frame and no environment depends on the texts with which frames break off, nor on whether they
break off by an internal fault or by breaking down: not for a launch, and not for any operation or any activation at any
level. The logs have the same lines, but for these texts and ways. -/
theorem textsStayInside (b c : Boundary ν) (settings : b.settings = c.settings)
    (alike : b.interpreter.Alike c.interpreter) :
    (∀ (host : E) (l : Launch), Agree (l.run b host) (l.run c host) ∧
      (log (l.run b host).2.2).map LogLine.redacted = (log (l.run c host).2.2).map LogLine.redacted) ∧
    (∀ (room depth : Nat) (f : Frame E) (op : Operation),
      Agree (f.step (b.level room depth) op) (f.step (c.level room depth) op)) ∧
    ∀ (room depth : Nat) (f : Frame E) (activation : Activation),
      ((b.interpreter activation).exec (b.level room depth) f).Alike ((c.interpreter activation).exec (c.level room depth) f) := by
  refine ⟨?_, ?_, ?_⟩
  · intro host l
    have agree := l.runAgrees settings alike host
    refine ⟨agree, ?_⟩
    rw [log, log, redactedLog, agree.trace, ← redactedLog]
  · intro room depth f op
    exact Frame.stepAgrees (levelAlike settings alike room depth) f op
  · intro room depth f activation
    exact Program.execAlike (levelAlike settings alike room depth) (alike activation) f

def relaying (landing : Program Unit (Option Bytes)) : Boundary Unit where
  settings := Settings.standard
  interpreter a :=
    match a.entry with
    | .method "relay" => do
      let _ ← Program.run (.call relayedCall)
      pure (some [1])
    | _ => landing

def faulting : Program Unit (Option Bytes) := .raise (.internal "table is closed")

def panicking : Program Unit (Option Bytes) := .panic (some "index out of range")

deriving instance DecidableEq for LogLine

theorem relayedTextsStayInside :
    let first := relayLaunch.run (relaying faulting) relayRoot
    let second := relayLaunch.run (relaying panicking) relayRoot
    (relaying faulting).interpreter.Alike (relaying panicking).interpreter ∧ Agree first second ∧
      log first.2.2 = [.internalFault relayed "table is closed"] ∧
      log second.2.2 = [.panicked relayed "index out of range"] := by
  intro first second
  have alike : (relaying faulting).interpreter.Alike (relaying panicking).interpreter := by
    intro activation
    simp only [relaying]
    split
    · exact Program.alikeRefl _
    · exact .broken (.faulted _) (.panicked _)
  obtain ⟨launches, -, -⟩ := textsStayInside (E := Overlay) (relaying faulting) (relaying panicking) rfl alike
  exact ⟨alike, (launches relayRoot relayLaunch).1, by decide +kernel, by decide +kernel⟩

end Boundary
end CallBoundary
