import CallBoundary.Proofs.Content
import CallBoundary.Proofs.Nesting
/-! Commit on success and on nothing else. The environment of a callee is folded into the one of its caller exactly
where the callee returned with gas to spare; otherwise the caller's environment and all below it are what they were.
This holds at every level, whatever the callee and those it calls do. Events stand in the order in which they will be
in the store once everything is committed: opening an environment adds none, and committing one takes none away. -/
namespace CallBoundary

namespace Overlay

def eventsThrough : List Layer → List Event → List Event
  | [], events => events
  | layer :: rest, events => eventsThrough rest events ++ layer.changes.events

def events (o : Overlay) : List Event := eventsThrough (o.own :: o.below) o.store.events

theorem writeEvents (o : Overlay) (f : Changes → Changes) (kept : ∀ c, (f c).events = c.events) :
    (o.write f).events = o.events := by
  simp only [events, eventsThrough, write, kept]

theorem emitEvents (o : Overlay) (event : Event) : (o.write fun c => c.emit event).events = o.events ++ [event] := by
  simp only [events, eventsThrough, write, Changes.emit, List.append_assoc]

theorem nestEvents (o : Overlay) (context : Context) (tariff : Tariff) (debug : Bool) :
    (o.nest context tariff debug).events = o.events :=
  List.append_nil _

theorem commitEvents (o : Overlay) : o.commit.clear.events = o.events := by
  unfold commit
  cases below : o.below with
  | nil => simp [clear, write, events, eventsThrough, below, Changes.empty, Store.absorb]
  | cons layer rest => simp [clear, write, events, eventsThrough, below, Changes.empty, Changes.merge]

theorem foldedEvents {o child : Overlay} {context : Context} {tariff : Tariff} {debug : Bool}
    (nested : WritesOnly (o.nest context tariff debug) child) : (o.absorb child.own.changes).events = child.events := by
  obtain ⟨changes, rfl⟩ := nested
  simp only [events, eventsThrough, absorb, write, nest, Changes.merge, List.append_assoc]

end Overlay

variable {ν : Type}

def Finished.Completed (f : Finished ν Overlay) : Prop :=
  (∃ output, f.ending = .returned output) ∧ f.meter.exhausted = false

theorem Finished.completedResult (f : Finished ν Overlay) : f.Completed ↔ ∃ output, f.result = .ok output := by
  unfold Completed result
  cases f.meter.exhausted with
  | true => simp
  | false => cases f.ending <;> simp [Ending.result]

namespace Overlay

structure Settled (before after : Overlay) (callee : Finished ν Overlay) : Prop where
  folded : after = before.absorb callee.host.own.changes
  below : after.below = before.below
  store : after.store = before.store
  view : after.view = callee.host.view
  events : after.own.changes.events = before.own.changes.events ++ callee.host.own.changes.events

theorem absorbView (o : Overlay) (changes : Changes) : (o.absorb changes).view = changes.onto o.view :=
  Changes.mergeOnto o.own.changes changes (viewThrough o.below o.store.view)

theorem nestView (o : Overlay) (context : Context) (tariff : Tariff) (debug : Bool) :
    (o.nest context tariff debug).view = o.view :=
  Changes.emptyOnto o.view

theorem commitView (o : Overlay) : o.commit.clear.view = o.view := by
  unfold commit
  cases below : o.below with
  | nil =>
    have stored : (o.store.absorb o.own.changes).view = o.own.changes.onto o.store.view :=
      Content.viewUnder (Content.ofStore o.store) o.own.changes
    simp only [clear, write, view, below, viewThrough, Changes.emptyOnto, stored]
  | cons layer rest =>
    simp only [clear, write, view, below, viewThrough, Changes.emptyOnto, Changes.mergeOnto]

theorem settledNested {o : Overlay} {context : Context} {tariff : Tariff} {debug : Bool} {callee : Finished ν Overlay}
    (nested : WritesOnly (o.nest context tariff debug) callee.host) :
    Settled o (o.absorb callee.host.own.changes) callee where
  folded := rfl
  below := rfl
  store := rfl
  view := by
    rw [absorbView]
    obtain ⟨changes, writes⟩ := nested
    rw [writes]
    rfl
  events := rfl

end Overlay

namespace Invocation

variable (b : Boundary ν) (room depth : Nat) (f : Frame Overlay) (i : Invocation)

theorem settles {callee : Finished ν Overlay} (runs : i.callee? (b.level room depth) f = some callee)
    {answer : Except Fault Outcome} {after : Frame Overlay} {trace : Trace ν}
    (closed : Frame.Closed (b.level room depth) callee answer after trace) :
    (Succeeded answer ↔ callee.Completed) ∧ (callee.Completed → f.host.Settled after.host callee) ∧
      (¬ callee.Completed → after.host = f.host) ∧
      ∃ activation, trace = [.ran (depth + 1) activation callee.trace callee.ending callee.meter none] := by
  obtain ⟨context, nested⟩ := Invocation.calleeNests (b.confined room depth) runs
  have closing := Frame.closeNested nested
  obtain ⟨activation, ran⟩ := closed.trace
  rw [closing, b.levelDepth] at ran
  rw [closed.success, closed.host, closing, callee.completedResult]
  refine ⟨Iff.rfl, ?_, ?_, activation, ran⟩
  · rintro ⟨output, ended⟩
    rw [ended]
    exact Overlay.settledNested nested
  · intro failed
    cases ended : callee.result with
    | ok output => exact (failed ⟨output, ended⟩).elim
    | error failure => rfl

theorem performFolds :
    let run := i.perform (b.level room depth) f
    (¬ Succeeded run.1 ∧ run.2.1.host = f.host) ∨
      ∃ activation callee context, i.admitted? (b.level room depth) f = some activation ∧
        (b.level room depth).callee? f.host i.amount activation = some callee ∧
        (∃ o, run.1 = .ok o ∧ o.isSuccess = true ∧ o.contract = activation.contract) ∧
        Overlay.WritesOnly (f.host.nest context f.host.own.tariff f.host.own.debug) callee.host ∧
        run.2.1.host = f.host.absorb callee.host.own.changes ∧
        run.2.2 = [.ran (depth + 1) activation callee.trace callee.ending callee.meter none] := by
  intro run
  have ended : Ended (b.level room depth) f i run := i.performEnded (b.level room depth) f
  generalize run = result at ended
  cases ended with
  | starved fault meter absent reason => exact .inl ⟨id, rfl⟩
  | declined contract failure meter absent => exact .inl ⟨Bool.false_ne_true, rfl⟩
  | underivable activation fault host meter absent refused => exact .inl ⟨Bool.false_ne_true, Overlay.deriveRefused refused⟩
  | ran activation callee meter admitted runs =>
    obtain ⟨context, nested⟩ := Level.calleeNests (b.confined room depth) runs
    have closing := Frame.closeNested nested
    cases result : callee.result with
    | error failure =>
      rw [closing, result]
      exact .inl ⟨Bool.false_ne_true, rfl⟩
    | ok output =>
      rw [closing, result, b.levelDepth]
      exact .inr ⟨activation, callee, context, admitted, runs, ⟨_, rfl, rfl, rfl⟩, nested, rfl, rfl⟩

/-- Whatever is called or deployed from a frame at any level, it succeeds just where its callee, the
one frame that the trace shows right below, completed. Then the caller sees what the callee saw, over
the same layers; otherwise nothing has changed at all. -/
theorem commitsExactlyOnSuccess :
    let level := b.level room depth
    let answer := (i.perform level f).1
    let after := (i.perform level f).2.1
    let trace := (i.perform level f).2.2
    (Succeeded answer ↔ ∃ callee, i.callee? level f = some callee ∧ callee.Completed) ∧
      (Succeeded answer → ∃ callee activation, i.callee? level f = some callee ∧
        trace = [.ran (depth + 1) activation callee.trace callee.ending callee.meter none] ∧
        f.host.Settled after.host callee) ∧
      (¬ Succeeded answer → after.host = f.host) := by
  intro level answer after trace
  rcases i.performCases level f with ⟨absent, declined⟩ | ⟨callee, runs, closed⟩
  · have unchanged : after.host = f.host := Frame.declinedHost declined
    refine ⟨⟨fun succeeded => (declined.unsuccessful succeeded).elim, ?_⟩,
      fun succeeded => (declined.unsuccessful succeeded).elim, fun _ => unchanged⟩
    rintro ⟨callee, present, -⟩
    rw [absent] at present
    cases present
  · obtain ⟨success, settled, unchanged, activation, ran⟩ := settles b room depth f i runs closed
    refine ⟨⟨fun succeeded => ⟨callee, runs, success.mp succeeded⟩, ?_⟩,
      fun succeeded => ⟨callee, activation, runs, ran, settled (success.mp succeeded)⟩,
      fun unsuccessful => unchanged (mt success.mpr unsuccessful)⟩
    rintro ⟨other, present, completed⟩
    rw [runs] at present
    cases present
    exact success.mpr completed

end Invocation

end CallBoundary
