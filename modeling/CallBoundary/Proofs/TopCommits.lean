import CallBoundary.Proofs.CallDepth
import CallBoundary.Proofs.Settlement
/-! Commits at the top. The store under a run changes in one way only: by a commit of the outermost frame, which
leaves in it what this frame sees then. So wherever a run stands, its store is what the last such commit made of
it, or the one it began with. Deeper frames are refused when they commit, and what is committed for them when they
succeed goes into the environment of their caller. -/
namespace CallBoundary

open StateTransition

structure Store.Shows (s : Store) (o : Overlay) : Prop where
  view : s.view = o.view
  events : s.events = o.events
  identities : s.identities = o.store.identities
  chain : s.chain = o.store.chain

namespace Overlay

variable {o after : Overlay}

theorem commitShows (bottom : o.below = []) : o.commit.store.Shows o := by
  obtain ⟨own, below, store⟩ := o
  subst bottom
  exact ⟨Content.viewUnder (Content.ofStore store) own.changes, rfl, rfl, rfl⟩

structure Stands (o after : Overlay) : Prop where
  below : after.below = o.below
  store : after.store = o.store

theorem standsOfWrites (writes : WritesOnly o after) : o.Stands after := by
  obtain ⟨changes, rfl⟩ := writes
  exact ⟨rfl, rfl⟩

theorem openedStands {activation : Activation} {amount : Amount} {child : Overlay}
    (opened : activation.opened? o amount = some child) :
    child.below = o.own :: o.below ∧ child.store = o.store := by
  obtain ⟨context, nested⟩ := openedNests opened
  exact ⟨(standsOfWrites nested).below, (standsOfWrites nested).store⟩

end Overlay

variable {ν : Type}

namespace Machine

section

variable {E : Type} [Host E] (b : Boundary ν)

def CommitsAtTop (m : Machine ν E) : Prop := m.waiting = [] ∧ ∃ next, m.rest = .perform .commit next

def Uncommitted : Machine ν E → Machine ν E → Prop :=
  Relation.ReflTransGen fun m after => ¬ m.CommitsAtTop ∧ m.advance b = some after

end

-- The environment of each frame that waits is below the one on top, and there are no others.
def Grounded (m : Machine ν Overlay) : Prop := m.frame.host.below.length = m.depth

variable {b : Boundary ν} {m after : Machine ν Overlay}

structure Keeps (m after : Machine ν Overlay) : Prop where
  grounded : after.Grounded
  committed : m.CommitsAtTop → after.frame.host.store.Shows m.frame.host
  other : ¬ m.CommitsAtTop → after.frame.host.store = m.frame.host.store

theorem keepsAlone (grounded : m.Grounded) (idle : ¬ m.CommitsAtTop) (waits : after.waiting = m.waiting)
    (stands : m.frame.host.Stands after.frame.host) : m.Keeps after where
  grounded := by
    have same : after.depth = m.depth := congrArg List.length waits
    rw [Grounded, stands.below, same]
    exact grounded
  committed commits := (idle commits).elim
  other _ := stands.store

theorem resumeKeeps (grounded : m.Grounded) (idle : ¬ m.CommitsAtTop) {ending : Ending}
    (resumed : m.resume ending = some after) : m.Keeps after := by
  obtain ⟨caller, waits, closed⟩ := resumeCases resumed
  rw [Grounded, depth, waits] at grounded
  obtain ⟨layer, rest, nested⟩ := List.exists_cons_of_length_eq_add_one grounded
  obtain ⟨changes, uncovered⟩ := Frame.closeUncovers ⟨m.frame, ending, m.trace⟩ nested
  have host := closed.trans uncovered
  rw [nested] at grounded
  refine ⟨?_, fun commits => (idle commits).elim, fun _ => by rw [host]⟩
  rw [Grounded, host]
  exact Nat.succ.inj grounded

theorem performedKeeps (grounded : m.Grounded) {op : Operation} {next : op.Answer → Program ν (Option Bytes)}
    (issued : m.rest = .perform op next) (rest : Program ν (Option Bytes)) (items : Trace ν) :
    m.Keeps (m.goOn rest (m.frame.step (m.level b) op).2.1 items) := by
  have levelDepth : (m.level b : Level ν Overlay).depth = m.depth := b.levelDepth 0 m.depth
  by_cases commits : m.CommitsAtTop
  · have ⟨top, other, same⟩ := commits
    cases issued.symm.trans same
    have zero : m.depth = 0 := congrArg List.length top
    have bottom : m.frame.host.below = [] := List.length_eq_zero_iff.mp (grounded.trans zero)
    have outermost : (m.level b : Level ν Overlay).depth = 0 := levelDepth.trans zero
    have goes := Frame.topCommitGoes outermost
      (show Host.commit m.frame.host = (.ok (), m.frame.host.commit) from rfl)
    rw [goes]
    refine ⟨?_, fun _ => Overlay.commitShows bottom, fun idle => (idle commits).elim⟩
    simp only [Grounded, goOn, Host.clear, Overlay.clear, Overlay.commit, Overlay.write, bottom, depth, top,
      List.length_nil]
  · have nested : op = .commit → 0 < (m.level b : Level ν Overlay).depth := by
      rintro rfl
      rw [levelDepth]
      exact List.length_pos_iff.mpr fun top => commits ⟨top, next, issued⟩
    have writes := m.frame.stepWritesOnly (m.level b) (b.confined 0 m.depth) op nested
    exact keepsAlone grounded commits rfl (Overlay.standsOfWrites writes)

theorem advanceKeeps (grounded : m.Grounded) (advanced : m.advance b = some after) : m.Keeps after := by
  have invoking (i : Invocation) (next : Resumption ν) (issued : m.rest = i.program next) : ¬ m.CommitsAtTop := by
    rintro ⟨-, other, same⟩
    rw [issued] at same
    cases i <;> cases same
  cases advanceCases advanced with
  | noted n next issued => exact keepsAlone grounded (fun commits => nomatch issued ▸ commits.2) rfl ⟨rfl, rfl⟩
  | performed op next issued => exact performedKeeps grounded issued _ _
  | underivable i next issued entering refused =>
    obtain rfl := Overlay.deriveRefused refused
    exact keepsAlone grounded (invoking i next issued) rfl ⟨rfl, rfl⟩
  | entered i next issued entering opened =>
    obtain ⟨below, store⟩ := Overlay.openedStands opened
    refine ⟨?_, fun commits => (invoking i next issued commits).elim, fun _ => store⟩
    exact (congrArg List.length below).trans (congrArg Nat.succ grounded)
  | returned ending ended resumed =>
    refine resumeKeeps grounded ?_ resumed
    rintro ⟨-, other, same⟩
    rw [ended] at same
    cases ending <;> cases same

inductive LastCommitted (b : Boundary ν) (start m : Machine ν Overlay) : Prop
  | none (quiet : Uncommitted b start m) (store : m.frame.host.store = start.frame.host.store)
  | last {committing after : Machine ν Overlay} (reached : Reaches (advance b) start committing)
      (commits : committing.CommitsAtTop) (goes : committing.advance b = some after) (quiet : Uncommitted b after m)
      (store : m.frame.host.store.Shows committing.frame.host)

theorem reachesCommitted {start : Machine ν Overlay} (grounded : start.Grounded)
    (reached : Reaches (advance b) start m) : m.Grounded ∧ LastCommitted b start m := by
  induction reached with
  | refl => exact ⟨grounded, .none .refl rfl⟩
  | @tail m after reached advanced ih =>
    obtain ⟨here, before⟩ := ih
    have step := advanceKeeps here advanced
    refine ⟨step.grounded, ?_⟩
    -- A commit at the top is the last one from here on; every other step leaves the store to the one before it.
    by_cases commits : m.CommitsAtTop
    · exact .last reached commits advanced .refl (step.committed commits)
    · cases before with
      | none quiet store => exact .none (quiet.tail ⟨commits, advanced⟩) ((step.other commits).trans store)
      | last earlier committing goes quiet store =>
        exact .last earlier committing goes (quiet.tail ⟨commits, advanced⟩) (step.other commits ▸ store)

theorem nestedCommitRefused (deeper : 0 < m.depth) {next : Except Fault Unit → Program ν (Option Bytes)}
    (issued : m.rest = .perform .commit next) :
    m.advance b = some (m.goOn (next (.error .nestedCommit)) m.frame [.performed .commit (.error .nestedCommit)]) := by
  obtain ⟨waiting, rest, f, t⟩ := m
  subst issued
  have below : 0 < (b.level 0 waiting.length : Level ν Overlay).depth := deeper
  exact congrArg (fun stepped => some (goOn _ (next stepped.1) stepped.2.1 (stepped.2.2 ++ [.performed .commit stepped.1])))
    (Frame.nestedCommit below)

end Machine

namespace Launch

section

variable {E : Type} [Host E] {b : Boundary ν} {l : Launch} {host : E}

theorem unstartedHost (absent : l.machine? b host = none) : (l.run b host).2.1 = host := by
  have ended := l.runEnded b host
  generalize l.run b host = result at ended
  cases ended with
  | declined failure none => rfl
  | ran activation admitted =>
    rw [machine?, admitted] at absent
    cases absent

theorem startedEnds {start : Machine ν E} (starts : l.machine? b host = some start) :
    ∃ last, last ∈ eval (Machine.advance b) start ∧ last.frame.host = (l.run b host).2.1 := by
  obtain ⟨activation, admitted, rfl⟩ := Option.map_eq_some_iff.mp starts
  rw [admittedRuns admitted]
  refine ⟨_, mem_eval.mpr ⟨?_, Machine.advanceEnded [] [] _⟩, rfl⟩
  exact Machine.execReaches (Machine.reaching b.settings.maxCallDepth.toNat [] (Nat.zero_add _))
    (b.interpreter activation) (Frame.ofLimit (l.prepared host) activation.gasLimit) []

end

theorem startedGrounded {b : Boundary ν} {l : Launch} {own : Layer} {store : Store} {start : Machine ν Overlay}
    (starts : l.machine? b (⟨own, [], store⟩ : Overlay) = some start) :
    start.Grounded ∧ start.frame.host.store = store := by
  obtain ⟨activation, -, rfl⟩ := Option.map_eq_some_iff.mp starts
  have stands : Overlay.Stands ⟨own, [], store⟩ (l.prepared ⟨own, [], store⟩) := by
    cases l <;> exact ⟨rfl, rfl⟩
  exact ⟨congrArg List.length stands.below, stands.store⟩

/-- Of what a launch does in a root environment, only the commits of its outermost frame reach the store below. At every
state of its run, the last one included, the store is as it was at first or shows what the outermost frame saw
when it committed last. A commit attempted deeper down is refused and changes nothing. Of a frame that
fails no write is left in any environment, and so none is left to be committed. -/
theorem storeShowsLastTopCommit (b : Boundary ν) (own : Layer) (store : Store) (l : Launch) :
    let root : Overlay := ⟨own, [], store⟩
    (l.machine? b root = none → (l.run b root).2.1 = root) ∧
    (∀ start, l.machine? b root = some start →
      start.frame.host.store = store ∧
      (∃ last, last ∈ eval (Machine.advance b) start ∧ last.frame.host = (l.run b root).2.1) ∧
      ∀ m, Reaches (Machine.advance b) start m →
        Machine.LastCommitted b start m ∧
        ∀ next, m.rest = .perform .commit next → 0 < m.depth →
          let answer : Except Fault Unit := .error (.failed "commit is only allowed at the top level")
          m.advance b = some (m.goOn (next answer) m.frame [.performed .commit answer])) ∧
    ∀ (room depth : Nat) (f : Frame Overlay) (i : Invocation),
      ¬ Succeeded (i.perform (b.level room depth) f).1 → (i.perform (b.level room depth) f).2.1.host = f.host := by
  intro root
  refine ⟨unstartedHost, ?_, ?_⟩
  · intro start starts
    obtain ⟨grounded, kept⟩ := startedGrounded starts
    refine ⟨kept, startedEnds starts, fun m reached => ⟨(Machine.reachesCommitted grounded reached).2, ?_⟩⟩
    intro next issued deeper
    exact Machine.nestedCommitRefused deeper issued
  · intro room depth f i unsuccessful
    rcases i.performFolds b room depth f with ⟨-, same⟩ | ⟨-, -, -, -, -, ⟨outcome, answered, success, -⟩, -⟩
    · exact same
    · exact (unsuccessful (answered ▸ success)).elim

def hasty : Boundary Unit where
  settings := Settings.standard
  interpreter a :=
    match a.entry with
    | .method "save" => do
      let _ ← Program.update (.setStorage [1] [1])
      let _ ← Program.run .commit
      let _ ← Program.run (.call ⟨Boundary.relayed, "spoil", [], Amount.zero, [], 0⟩)
      let _ ← Program.update (.setStorage [1] [2])
      Program.raise (.failed "too hasty")
    | _ => do
      let _ ← Program.update (.setStorage [1] [3])
      let _ ← Program.run .commit
      Program.raise (.failed "spoilt")

example :
    let after := (Launch.execute Boundary.relayed "save" [] 0).run hasty Boundary.relayRoot
    after.1.isSuccess = false ∧ after.2.1.view.storage ⟨Boundary.relayed, [1]⟩ = some [2] ∧
      after.2.1.store.storage[(⟨Boundary.relayed, [1]⟩ : Cell)]? = some [1] := by
  decide +kernel

end Launch
end CallBoundary
