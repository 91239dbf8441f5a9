import CallBoundary.Proofs.Launches
import CallBoundary.Proofs.Traces
/-! Two runs of which one performs, here and there, another update than the other does. Where the hosts of the two are
related, so that they answer alike and stay related whichever of two updates of the same form is performed, the whole
runs come to the same: to the same outcomes, meters and reports in every frame, and to traces that differ in these
updates alone. -/
namespace CallBoundary

variable {ν E F : Type}

-- The two perform the same operations and leave the same notes, whatever the answers, and end alike, except that
-- where one performs an update the other may perform another of the same form.
inductive Program.Twin {α : Type} (form : Update → Update) : Program ν α → Program ν α → Prop
  | ret (value : α) : Twin form (.ret value) (.ret value)
  | raise (fault : Fault) : Twin form (.raise fault) (.raise fault)
  | panic (text : Option String) : Twin form (.panic text) (.panic text)
  | note (n : ν) {next other : Program ν α} (rest : Twin form next other) : Twin form (.note n next) (.note n other)
  | perform (op : Operation) {next other : op.Answer → Program ν α}
      (rest : ∀ answer, Twin form (next answer) (other answer)) : Twin form (.perform op next) (.perform op other)
  | exchanged {u v : Update} (alike : form v = form u) {next other : Except Fault (Metered Unit) → Program ν α}
      (rest : ∀ answer, Twin form (next answer) (other answer)) :
      Twin form (.perform (.update u) next) (.perform (.update v) other)

namespace Trace

mutual
def Item.formed (form : Update → Update) : Item ν → Item ν
  | .performed (.update u) answer => .performed (.update (form u)) answer
  | .ran depth activation items ending meter commitFault =>
    .ran depth activation (formed form items) ending meter commitFault
  | item => item

def formed (form : Update → Update) : List (Item ν) → List (Item ν)
  | [] => []
  | item :: rest => item.formed form :: formed form rest
end

theorem formedAppend (form : Update → Update) (s t : Trace ν) :
    formed form (s ++ t) = formed form s ++ formed form t := by
  induction s with
  | nil => rfl
  | cons item rest ih => simp only [List.cons_append, formed, ih]

end Trace

open Trace

structure Host.Simulation [Host E] [Host F] (R : E → F → Prop) (form : Update → Update) : Prop where
  reported : ∀ {u v}, form v = form u → Frame.attemptOfUpdate v = Frame.attemptOfUpdate u
  query : ∀ {host twin}, R host twin → ∀ m q, Host.query twin m q = Host.query host m q
  update : ∀ {host twin}, R host twin → ∀ m {u v}, form v = form u →
    (Host.update twin m v).1 = (Host.update host m u).1 ∧ (Host.update twin m v).2.1 = (Host.update host m u).2.1 ∧
      R (Host.update host m u).2.2 (Host.update twin m v).2.2
  derive : ∀ {host twin}, R host twin → ∀ contract amount deployment,
    (Host.derive twin contract amount deployment).1 = (Host.derive host contract amount deployment).1 ∧
      R (Host.derive host contract amount deployment).2 (Host.derive twin contract amount deployment).2
  release : ∀ {host twin}, R host twin → R (Host.release host) (Host.release twin)
  code : ∀ {host twin}, R host twin → ∀ address, Host.code? twin address = Host.code? host address
  codeHash : ∀ {host twin}, R host twin → ∀ address, Host.codeHash? twin address = Host.codeHash? host address
  register : ∀ {host twin}, R host twin → ∀ code, R (Host.register host code) (Host.register twin code)
  commit : ∀ {host twin}, R host twin →
    (Host.commit twin).1 = (Host.commit host).1 ∧ R (Host.commit host).2 (Host.commit twin).2
  clear : ∀ {host twin}, R host twin → R (Host.clear host) (Host.clear twin)
  isDebug : ∀ {host twin}, R host twin → Host.isDebug twin = Host.isDebug host

structure Frame.Twin (R : E → F → Prop) (f : Frame E) (g : Frame F) : Prop where
  host : R f.host g.host
  meter : g.meter = f.meter
  reports : g.reports = f.reports

structure Finished.Twin (R : E → F → Prop) (form : Update → Update) (first : Finished ν E) (second : Finished ν F) :
    Prop where
  frame : Frame.Twin R first.toFrame second.toFrame
  ending : second.ending = first.ending
  trace : formed form second.trace = formed form first.trace

structure Frame.CameAlike {α : Type} (R : E → F → Prop) (form : Update → Update) (first : α × Frame E × Trace ν)
    (second : α × Frame F × Trace ν) : Prop where
  answer : second.1 = first.1
  after : Frame.Twin R first.2.1 second.2.1
  trace : formed form second.2.2 = formed form first.2.2

structure Level.Twin (R : E → F → Prop) (form : Update → Update) (level : Level ν E) (other : Level ν F) : Prop where
  depth : other.depth = level.depth
  settings : other.settings = level.settings
  enter : Option.Rel (fun run twinRun => ∀ {host twin}, R host twin → ∀ activation,
    (run host activation).Twin R form (twinRun twin activation)) level.enter other.enter

variable {R : E → F → Prop} {form : Update → Update}

namespace Finished

variable {first : Finished ν E} {second : Finished ν F}

theorem twinResult (twin : first.Twin R form second) : second.result = first.result := by
  rw [result, result, twin.frame.meter, twin.ending]

theorem twinReport (twin : first.Twin R form second) (attempt : Attempt) (gasLimit : Gas) (result : Result) :
    second.report attempt gasLimit result = first.report attempt gasLimit result := by
  rw [report, report, twin.frame.meter, twin.frame.reports]

end Finished

namespace Frame

variable {f : Frame E} {g : Frame F}

theorem movedTwin (twin : f.Twin R g) {host : E} {twinHost : F} (related : R host twinHost) {meter twinMeter : Meter}
    (meters : twinMeter = meter) : Twin R { f with host, meter } { g with host := twinHost, meter := twinMeter } :=
  ⟨related, meters, twin.reports⟩

theorem recordTwin (twin : f.Twin R g) (report : Report) : (f.record report).Twin R (g.record report) :=
  ⟨twin.host, twin.meter, congrArg (· ++ [report]) twin.reports⟩

theorem recordIfTwin {α : Type} (twin : f.Twin R g) (attempt : Option Attempt) (answer : Except Fault (Metered α)) :
    (f.recordIf attempt answer).Twin R (g.recordIf attempt answer) := by
  cases attempt with
  | none => exact twin
  | some attempt =>
    cases answer with
    | ok value => exact recordTwin twin _
    | error fault =>
      cases fault with
      | outOfGas => exact twin
      | failed message | internal message => exact recordTwin twin _

variable [Host E] [Host F] (simulation : Host.Simulation R form)
include simulation

theorem queryTwin (twin : f.Twin R g) (q : Query) :
    (g.query q).1 = (f.query q).1 ∧ (f.query q).2.Twin R (g.query q).2 := by
  have asked := simulation.query twin.host f.meter q
  unfold query
  rw [twin.meter, asked]
  split
  · exact ⟨rfl, twin⟩
  · exact ⟨rfl, recordIfTwin (movedTwin twin twin.host rfl) _ _⟩

theorem updateTwin (twin : f.Twin R g) {u v : Update} (alike : form v = form u) :
    (g.update v).1 = (f.update u).1 ∧ (f.update u).2.Twin R (g.update v).2 := by
  obtain ⟨answers, meters, hosts⟩ := simulation.update twin.host f.meter alike
  unfold update
  simp only [twin.meter, answers, meters, simulation.reported alike]
  split
  · exact ⟨rfl, twin⟩
  · exact ⟨rfl, recordIfTwin (movedTwin twin hosts rfl) _ _⟩

theorem closeTwin {callee : Finished ν E} {counterpart : Finished ν F} (twin : callee.Twin R form counterpart) :
    (close counterpart).1 = (close callee).1 ∧ R (close callee).2.1 (close counterpart).2.1 ∧
      (close counterpart).2.2 = (close callee).2.2 := by
  obtain ⟨answers, hosts⟩ := simulation.commit twin.frame.host
  simp only [close, Finished.twinResult twin]
  cases callee.result with
  | error failure => exact ⟨rfl, simulation.release twin.frame.host, rfl⟩
  | ok output =>
    cases committed : Host.commit callee.host with
    | mk answer after =>
      cases alsoCommitted : Host.commit counterpart.host with
      | mk alsoAnswer alsoAfter =>
        rw [committed, alsoCommitted] at answers hosts
        obtain rfl : alsoAnswer = answer := answers
        cases alsoAnswer <;> exact ⟨rfl, simulation.release hosts, rfl⟩

variable {level : Level ν E} {other : Level ν F} (levels : level.Twin R form other)
include levels

theorem enterTwin (twin : f.Twin R g) (attempt : Attempt) (amount : Amount) (activation : Activation) :
    CameAlike R form (f.enter level attempt amount activation) (g.enter other attempt amount activation) := by
  obtain ⟨depth, settings, enter⟩ := level
  obtain ⟨_, _, also⟩ := other
  obtain ⟨rfl, rfl, deeper⟩ := levels
  cases deeper with
  | none => exact ⟨rfl, recordTwin twin _, rfl⟩
  | some runs =>
    obtain ⟨answers, hosts⟩ := simulation.derive twin.host activation.contract amount (activation.entry = .constructor)
    simp only [Frame.enter]
    cases derived : Host.derive f.host activation.contract amount (activation.entry = .constructor) with
    | mk answer child =>
      cases alsoDerived : Host.derive g.host activation.contract amount (activation.entry = .constructor) with
      | mk alsoAnswer alsoChild =>
        rw [derived, alsoDerived] at answers hosts
        obtain rfl : alsoAnswer = answer := answers
        cases alsoAnswer with
        | error fault => exact ⟨rfl, recordTwin (movedTwin twin hosts twin.meter) _, rfl⟩
        | ok _ =>
          have begun : R (if activation.entry = .constructor then Host.register child activation.code else child)
              (if activation.entry = .constructor then Host.register alsoChild activation.code else alsoChild) := by
            split
            · exact simulation.register hosts _
            · exact hosts
          have callee := runs begun activation
          obtain ⟨results, closed, faults⟩ := closeTwin simulation callee
          simp only [results, faults, Finished.twinReport callee]
          refine ⟨rfl, recordTwin (movedTwin twin closed twin.meter) _, ?_⟩
          simp only [formed, Item.formed, callee.trace, callee.ending, callee.frame.meter]

theorem callTwin (twin : f.Twin R g) (c : Call) : CameAlike R form (f.call level c) (g.call other c) := by
  simp only [call, twin.meter, simulation.code twin.host, levels.settings]
  split
  · exact ⟨rfl, twin, rfl⟩
  · cases Host.code? f.host c.contract with
    | none => exact ⟨rfl, recordTwin twin _, rfl⟩
    | some code =>
      have entered := enterTwin simulation levels twin c.attempt c.amount (c.activation code level.settings.debug)
      exact ⟨congrArg Except.ok entered.answer, entered.after, entered.trace⟩

theorem deployTwin (twin : f.Twin R g) (d : Deployment) : CameAlike R form (f.deploy level d) (g.deploy other d) := by
  obtain ⟨answers, paid⟩ := queryTwin simulation twin (.addressOfCode d.code d.args d.nonce)
  simp only [deploy, levels.settings]
  cases asked : f.query (.addressOfCode d.code d.args d.nonce) with
  | mk answer here =>
    cases alsoAsked : g.query (.addressOfCode d.code d.args d.nonce) with
    | mk alsoAnswer there =>
      rw [asked, alsoAsked] at answers paid
      obtain rfl : alsoAnswer = answer := answers
      cases alsoAnswer with
      | error fault => exact ⟨rfl, paid, rfl⟩
      | ok derived =>
        obtain ⟨contract, gas⟩ := derived
        simp only [simulation.codeHash paid.host]
        cases Host.codeHash? here.host contract with
        | some hash => exact ⟨rfl, recordTwin paid _, rfl⟩
        | none =>
          have entered := enterTwin simulation levels paid d.attempt d.amount (d.activation contract level.settings.debug)
          exact ⟨congrArg Except.ok entered.answer, entered.after, entered.trace⟩

theorem commitTwin (twin : f.Twin R g) :
    (g.commit other).1 = (f.commit level).1 ∧ (f.commit level).2.Twin R (g.commit other).2 := by
  obtain ⟨answers, hosts⟩ := simulation.commit twin.host
  simp only [commit, levels.depth]
  split
  · exact ⟨rfl, twin⟩
  · cases committed : Host.commit f.host with
    | mk answer after =>
      cases alsoCommitted : Host.commit g.host with
      | mk alsoAnswer alsoAfter =>
        rw [committed, alsoCommitted] at answers hosts
        obtain rfl : alsoAnswer = answer := answers
        cases alsoAnswer with
        | error fault => exact ⟨rfl, hosts, twin.meter, twin.reports⟩
        | ok _ => exact ⟨rfl, simulation.clear hosts, twin.meter, twin.reports⟩

theorem stepTwin (twin : f.Twin R g) (op : Operation) : CameAlike R form (f.step level op) (g.step other op) := by
  cases op with
  | query q =>
    obtain ⟨answers, after⟩ := queryTwin simulation twin q
    exact ⟨answers, after, rfl⟩
  | update u =>
    obtain ⟨answers, after⟩ := updateTwin simulation twin (rfl : form u = form u)
    exact ⟨answers, after, rfl⟩
  | ask p =>
    refine ⟨?_, twin, rfl⟩
    cases p with
    | depth => exact levels.depth
    | settings => exact levels.settings
    | meter => exact twin.meter
    | reports => exact twin.reports
    | debug => exact simulation.isDebug twin.host
  | consumeGas gas =>
    simp only [step, consumeGas, twin.meter]
    exact ⟨rfl, ⟨twin.host, rfl, twin.reports⟩, rfl⟩
  | setGasLimit limit => exact ⟨rfl, ⟨twin.host, congrArg (Meter.withLimit · limit) twin.meter, twin.reports⟩, rfl⟩
  | commit =>
    obtain ⟨answers, after⟩ := commitTwin simulation levels twin
    exact ⟨answers, after, rfl⟩
  | call c => exact callTwin simulation levels twin c
  | deploy d => exact deployTwin simulation levels twin d

end Frame

variable [Host E] [Host F] (simulation : Host.Simulation R form)
include simulation

theorem Program.execTwin {level : Level ν E} {other : Level ν F} (levels : level.Twin R form other)
    {p q : Program ν (Option Bytes)} (alike : p.Twin form q) {f : Frame E} {g : Frame F} (twin : f.Twin R g) :
    (p.exec level f).Twin R form (q.exec other g) := by
  induction alike generalizing f g with
  | ret value | raise fault | panic text => exact ⟨twin, rfl, rfl⟩
  | note n rest ih =>
    have later := ih twin
    exact ⟨later.frame, later.ending, by simp only [exec, formed, later.trace]⟩
  | perform op rest ih =>
    -- Both get the same answer, so they go on in the branches for it, which are twins.
    have stepped := Frame.stepTwin simulation levels twin op
    have later := ih (f.step level op).1 stepped.after
    simp only [exec, stepped.answer]
    refine ⟨later.frame, later.ending, ?_⟩
    simp only [formedAppend, formed, stepped.trace, later.trace]
  | exchanged updates rest ih =>
    rename_i u v next other
    obtain ⟨answers, after⟩ := Frame.updateTwin simulation twin updates
    have later := ih (f.update u).1 after
    have item : (Item.performed (.update (form v)) (f.update u).1 : Item ν) =
        .performed (.update (form u)) (f.update u).1 :=
      congrArg (fun w => Item.performed (.update w) (f.update u).1) updates
    simp only [exec, Frame.step, answers]
    refine ⟨later.frame, later.ending, ?_⟩
    simp only [List.nil_append, formed, Item.formed, item, later.trace]

namespace Boundary

variable {b c : Boundary ν}

theorem levelTwin (settings : c.settings = b.settings)
    (alike : ∀ activation, (b.interpreter activation).Twin form (c.interpreter activation)) (room depth : Nat) :
    (b.level room depth : Level ν E).Twin R form (c.level room depth : Level ν F) := by
  induction room generalizing depth with
  | zero => exact ⟨rfl, settings, .none⟩
  | succ room ih =>
    refine ⟨rfl, settings, .some ?_⟩
    intro host twin related activation
    exact Program.execTwin simulation (ih (depth + 1)) (alike activation) ⟨related, rfl, rfl⟩

theorem runTwin (settings : c.settings = b.settings)
    (alike : ∀ activation, (b.interpreter activation).Twin form (c.interpreter activation)) {host : E} {twin : F}
    (related : R host twin) (attempt : Attempt) (activation : Activation) :
    (c.run twin attempt activation).1 = (b.run host attempt activation).1 ∧
      R (b.run host attempt activation).2.1 (c.run twin attempt activation).2.1 ∧
      formed form (c.run twin attempt activation).2.2 = formed form (b.run host attempt activation).2.2 := by
  have top : (b.top : Level ν E).Twin R form (c.top : Level ν F) := by
    rw [Boundary.top, Boundary.top, settings]
    exact levelTwin simulation settings alike _ 0
  have begun : (Frame.ofLimit host activation.gasLimit).Twin R (Frame.ofLimit twin activation.gasLimit) :=
    ⟨related, rfl, rfl⟩
  have finished := Program.execTwin simulation top (alike activation) begun
  refine ⟨?_, finished.frame.host, ?_⟩
  · simp only [run, Finished.twinResult finished, Finished.twinReport finished]
  · simp only [run, formed, Item.formed, finished.trace, finished.ending, finished.frame.meter]

end Boundary

theorem Launch.runTwin {b c : Boundary ν} (settings : c.settings = b.settings)
    (alike : ∀ activation, (b.interpreter activation).Twin form (c.interpreter activation)) {host : E} {twin : F}
    (related : R host twin) (l : Launch) :
    (l.run c twin).1 = (l.run b host).1 ∧ R (l.run b host).2.1 (l.run c twin).2.1 ∧
      formed form (l.run c twin).2.2 = formed form (l.run b host).2.2 := by
  cases l with
  | execute contract method args gasLimit =>
    simp only [run, Boundary.execute, simulation.code related, settings]
    cases Host.code? host contract with
    | none => exact ⟨rfl, related, rfl⟩
    | some code => exact Boundary.runTwin simulation settings alike related _ _
  | deploy contract code args gasLimit =>
    simp only [run, Boundary.deploy, simulation.codeHash related, settings]
    cases Host.codeHash? host contract with
    | some hash => exact ⟨rfl, related, rfl⟩
    | none => exact Boundary.runTwin simulation settings alike (simulation.register related code) _ _

end CallBoundary
