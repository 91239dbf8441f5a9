import CallBoundary.Proofs.MappedRuns
import CallBoundary.Proofs.Traces
/-! What a counting host counts. A run over it is the run over the host it was made around. What the frames inside do
leaves its counts alone, so these follow the frame at the top, one operation after another: one more environment for
each invocation that is admitted where it is not too deep, and one more commit for each that is made. -/
namespace CallBoundary

variable {ν E : Type}

namespace Counted

def around (inner : E) : Counted E := { inner }

structure Adds (derived committed : Nat) (c after : Counted E) : Prop where
  openInside : after.openInside = c.openInside
  derivations : after.derivations = c.derivations + if c.openInside = 0 then derived else 0
  commits : after.commits = c.commits + if c.openInside = 0 then committed else 0

structure Opens (c child : Counted E) : Prop where
  openInside : child.openInside = c.openInside + 1
  derivations : child.derivations = c.derivations + if c.openInside = 0 then 1 else 0
  commits : child.commits = c.commits

variable {c middle after child : Counted E}

theorem addsNothing (c : Counted E) : Adds 0 0 c c := by
  constructor <;> simp

theorem addsThen {derived committed more further : Nat} (first : Adds derived committed c middle)
    (later : Adds more further middle after) : Adds (derived + more) (committed + further) c after where
  openInside := later.openInside.trans first.openInside
  derivations := by
    rw [later.derivations, first.derivations, first.openInside]
    split <;> omega
  commits := by
    rw [later.commits, first.commits, first.openInside]
    split <;> omega

variable [Host E]

theorem innerMapping : Host.Mapping (Counted.inner : Counted E → E) where
  query _ _ _ := rfl
  update _ _ _ := rfl
  derive c contract amount deployment := by
    simp only [Host.derive, derive]
    cases Host.derive c.inner contract amount deployment with
    | mk answer after => cases answer <;> rfl
  release _ := rfl
  code _ _ := rfl
  codeHash _ _ := rfl
  register _ _ := rfl
  commit _ := rfl
  clear _ := rfl
  isDebug _ := rfl

theorem deriveRefused {contract : Address} {amount : Amount} {deployment : Bool} {fault : Fault}
    (refused : Host.derive c contract amount deployment = (.error fault, after)) : Adds 1 0 c after := by
  simp only [Host.derive, derive] at refused
  cases derived : Host.derive c.inner contract amount deployment with
  | mk answer inner =>
    rw [derived] at refused
    cases answer with
    | error _ =>
      cases refused
      refine ⟨rfl, ?_, ?_⟩ <;> (dsimp only; split <;> rfl)
    | ok _ => cases refused

theorem deriveOpens {contract : Address} {amount : Amount} {deployment : Bool}
    (derived : Host.derive c contract amount deployment = (.ok (), child)) : Opens c child := by
  simp only [Host.derive, derive] at derived
  cases within : Host.derive c.inner contract amount deployment with
  | mk answer inner =>
    rw [within] at derived
    cases answer with
    | error _ => cases derived
    | ok _ =>
      cases derived
      refine ⟨rfl, ?_, rfl⟩
      dsimp only
      split <;> rfl

theorem openedCounts {activation : Activation} {amount : Amount} (opened : activation.opened? c amount = some child) :
    Opens c child := by
  obtain ⟨fresh, derived, rfl⟩ := activation.openedFrom opened
  obtain ⟨openInside, derivations, commits⟩ := deriveOpens derived
  split <;> exact ⟨openInside, derivations, commits⟩

theorem closeCounts {callee : Finished ν (Counted E)} (inside : callee.host.openInside ≠ 0) :
    (Frame.close callee).2.1.openInside = callee.host.openInside - 1 ∧
      (Frame.close callee).2.1.derivations = callee.host.derivations ∧
      (Frame.close callee).2.1.commits = callee.host.commits := by
  unfold Frame.close
  cases callee.result with
  | error failure => exact ⟨rfl, rfl, rfl⟩
  | ok output =>
    have committed : Host.commit callee.host =
        ((Host.commit callee.host.inner).1, { callee.host with inner := (Host.commit callee.host.inner).2 }) := by
      simp only [Host.commit, commit, if_neg inside]
    simp only [committed]
    cases (Host.commit callee.host.inner).1 <;> exact ⟨rfl, rfl, rfl⟩

theorem calleeAdds (opens : Opens c child) {callee : Finished ν (Counted E)} {derived committed : Nat}
    (ran : Adds derived committed child callee.host) : Adds 1 0 c (Frame.close callee).2.1 := by
  have nested : child.openInside ≠ 0 := opens.openInside ▸ Nat.succ_ne_zero _
  obtain ⟨left, counted, spared⟩ := closeCounts (ran.openInside ▸ nested)
  constructor
  · rw [left, ran.openInside, opens.openInside, Nat.add_sub_cancel]
  · rw [counted, ran.derivations, if_neg nested, opens.derivations, Nat.add_zero]
  · rw [spared, ran.commits, if_neg nested, opens.commits, ite_self]

end Counted

open Counted

/-! Operations and what they add. -/

namespace Invocation

variable [Host E] {level : Level ν E} {f : Frame E} {i : Invocation}

def enters (level : Level ν E) (f : Frame E) (i : Invocation) : Bool :=
  (i.admitted? level f).isSome && level.enter.isSome

theorem entersGiven (enters : i.enters level f = true) :
    ∃ activation run, i.admitted? level f = some activation ∧ level.enter = some run := by
  obtain ⟨admits, deep⟩ := Bool.and_eq_true_iff.mp enters
  obtain ⟨activation, admitted⟩ := Option.isSome_iff_exists.mp admits
  obtain ⟨run, deeper⟩ := Option.isSome_iff_exists.mp deep
  exact ⟨activation, run, admitted, deeper⟩

theorem uncalledHost (idle : i.enters level f = false) : (i.perform level f).2.1.host = f.host := by
  cases admitted : i.admitted? level f with
  | none =>
    rcases unadmittedEnds admitted with ⟨fault, meter, -, ends⟩ | ⟨contract, failure, meter, ends⟩
    · rw [ends]
    · rw [ends]
      rfl
  | some activation =>
    rw [enters, admitted, Option.isSome_some, Bool.true_and, Option.isSome_eq_false_iff, Option.isNone_iff_eq_none] at idle
    obtain ⟨meter, charged⟩ := i.addressedCharges f
    rw [performEntered admitted, charged]
    simp only [Frame.enter, idle]
    rfl

end Invocation

namespace Operation

def enters [Host E] (level : Level ν E) (f : Frame E) : Operation → Bool
  | call c => (Invocation.call c).enters level f
  | deploy d => (Invocation.deploy d).enters level f
  | _ => false

def commitsAt (depth : Nat) : Operation → Bool
  | commit => depth = 0
  | _ => false

end Operation

namespace Frame

variable [Host E]

def Counts (_ : Nat) (f after : Frame (Counted E)) : Prop :=
  ∃ derived committed, Adds derived committed f.host after.host

theorem updateAdds (f : Frame (Counted E)) (u : Update) : Adds 0 0 f.host (f.update u).2.host := by
  unfold update
  split
  · exact addsNothing f.host
  · rw [recordIfHost]
    constructor <;> simp [Host.update]

theorem commitAdds (level : Level ν (Counted E)) (f : Frame (Counted E)) :
    Adds 0 (Operation.commitsAt level.depth .commit).toNat f.host (f.commit level).2.host := by
  unfold commit
  split
  · rename_i nested
    have idle : Operation.commitsAt level.depth .commit = false := decide_eq_false (Nat.ne_of_gt nested)
    rw [idle]
    exact addsNothing f.host
  · rename_i top
    have commits : Operation.commitsAt level.depth .commit = true := decide_eq_true (Nat.eq_zero_of_not_pos top)
    rw [commits]
    simp only [Host.commit, Counted.commit]
    cases (Host.commit f.host.inner).1 <;> constructor <;> dsimp only [Host.clear] <;> split <;> rfl

variable {level : Level ν (Counted E)} (guarantees : level.Guarantees Counts)
include guarantees

theorem enterAdds {run : Counted E → Activation → Finished ν (Counted E)} (deeper : level.enter = some run)
    (f : Frame (Counted E)) (attempt : Attempt) (amount : Amount) (activation : Activation) :
    Adds 1 0 f.host (f.enter level attempt amount activation).2.1.host := by
  cases derived : Host.derive f.host activation.contract amount (activation.entry = .constructor) with
  | mk answer host =>
    cases answer with
    | error fault =>
      rw [enterUnderivable deeper derived]
      exact deriveRefused derived
    | ok _ =>
      have opened : activation.opened? f.host amount =
          some (if activation.entry = .constructor then Host.register host activation.code else host) := by
        simp only [Activation.opened?, derived]
      rw [enterOpened deeper opened]
      obtain ⟨derived, committed, ran⟩ := guarantees run deeper _ activation
      exact calleeAdds (openedCounts opened) ran

theorem performAdds (f : Frame (Counted E)) (i : Invocation) :
    Adds (i.enters level f).toNat 0 f.host (i.perform level f).2.1.host := by
  cases enters : i.enters level f with
  | false =>
    rw [Invocation.uncalledHost enters]
    exact addsNothing f.host
  | true =>
    obtain ⟨activation, run, admitted, deeper⟩ := Invocation.entersGiven enters
    obtain ⟨meter, charged⟩ := i.addressedCharges f
    rw [Invocation.performEntered admitted, charged]
    exact enterAdds guarantees deeper { f with meter } i.attempt i.amount activation

theorem stepAdds (f : Frame (Counted E)) (op : Operation) :
    Adds (op.enters level f).toNat (op.commitsAt level.depth).toNat f.host (f.step level op).2.1.host := by
  cases op with
  | query q =>
    rw [step, f.queryHost q]
    exact addsNothing f.host
  | update u => exact updateAdds f u
  | ask _ | consumeGas _ | setGasLimit _ => exact addsNothing f.host
  | commit => exact commitAdds level f
  | call c => exact performAdds guarantees f (.call c)
  | deploy d => exact performAdds guarantees f (.deploy d)

end Frame

theorem Boundary.counting [Host E] (b : Boundary ν) (room depth : Nat) :
    (b.level room depth : Level ν (Counted E)).Guarantees Frame.Counts := by
  refine b.guarantees (fun _ f => ⟨0, 0, addsNothing f.host⟩) ?_ ?_ room depth
  · rintro _ _ _ _ ⟨derived, committed, first⟩ ⟨more, further, later⟩
    exact ⟨_, _, addsThen first later⟩
  · exact fun level below f op => ⟨_, _, Frame.stepAdds below f op⟩

/-! What a frame issues, and what of it is to be counted. -/

structure Issued (E : Type) where
  frame : Frame E
  op : Operation
  answer : op.Answer

def Level.issue [Host E] (level : Level ν E) (f : Frame E) (op : Operation) : Issued E := ⟨f, op, (f.step level op).1⟩

namespace Operation

def returned : (op : Operation) → op.Answer → Bool
  | call _, answer | deploy _, answer => answer.isOk
  | _, _ => false

def committed : (op : Operation) → op.Answer → Bool
  | commit, answer => answer.isOk
  | _, _ => false

end Operation

def Overlay.clears (o : Overlay) : Operation → Bool
  | .call c => (o.view.code c.contract).any (· ≠ [])
  | .deploy d => (o.view.code (Address.ofDeployment (Keccak.hash d.code) d.args d.nonce)).isNone
  | _ => false

namespace Issued

def item (i : Issued E) : Trace.Item ν := .performed i.op i.answer

-- An invocation that is answered with an outcome, passes the check of the code, and is not too deep.
def derives (b : Boundary ν) (depth : Nat) (i : Issued Overlay) : Bool :=
  i.op.returned i.answer && i.frame.host.clears i.op && depth < b.settings.maxCallDepth.toNat

def commits (i : Issued E) : Bool := i.op.committed i.answer

end Issued

namespace Frame

theorem queryAnswered {f : Frame Overlay} {q : Query} {value : q.Answer} {gas : Gas}
    (answered : (f.query q).1 = .ok ⟨value, gas⟩) : value = f.host.answer q := by
  cases exhausted : f.meter.exhausted with
  | true =>
    rw [queryExhausted exhausted] at answered
    cases answered
  | false =>
    have ended : f.host.QueryEnded f.meter q (Host.query f.host f.meter q) := f.host.queryEnded f.meter q
    rw [querySpared exhausted] at answered
    generalize Host.query f.host f.meter q = result at answered ended
    cases ended with
    | refused | starved => cases answered
    | answered =>
      cases answered
      rfl

variable (level : Level ν Overlay) (f : Frame Overlay)

theorem callClears (c : Call) :
    ((Invocation.call c).admitted? level f).isSome = ((f.call level c).1.isOk && f.host.clears (.call c)) := by
  simp only [Invocation.admitted?, call, Overlay.clears, Host.code?]
  split
  · rfl
  · cases f.host.view.code c.contract with
    | none => rfl
    | some code => by_cases empty : code = [] <;> simp [empty, Option.filter, Except.isOk, Except.toBool]

theorem deployClears (d : Deployment) :
    ((Invocation.deploy d).admitted? level f).isSome = ((f.deploy level d).1.isOk && f.host.clears (.deploy d)) := by
  obtain ⟨meter, charged⟩ := f.addressCharges d.code d.args d.nonce
  simp only [Invocation.admitted?, deploy, Overlay.clears]
  cases asked : f.query (.addressOfCode d.code d.args d.nonce) with
  | mk answer paid =>
    rw [asked] at charged
    subst charged
    cases answer with
    | error fault => rfl
    | ok derived =>
      obtain ⟨contract, gas⟩ := derived
      obtain rfl : contract = Address.ofDeployment (Keccak.hash d.code) d.args d.nonce := queryAnswered (congrArg Prod.fst asked)
      simp only [Host.codeHash?]
      cases f.host.view.code (Address.ofDeployment (Keccak.hash d.code) d.args d.nonce) with
      | none => rfl
      | some code => simp [Except.isOk, Except.toBool]

end Frame

namespace Boundary

variable (b : Boundary ν)

def levelAt [Host E] (depth : Nat) : Level ν E := b.level (b.settings.maxCallDepth.toNat - depth) depth

theorem levelEnters [Host E] (room depth : Nat) : (b.level room depth : Level ν E).enter.isSome = decide (0 < room) := by
  cases room <;> rfl

theorem entersDerives (depth : Nat) (f : Frame Overlay) (op : Operation) :
    op.enters (b.levelAt depth) f = ((b.levelAt depth).issue f op).derives b depth := by
  have room : (b.levelAt depth : Level ν Overlay).enter.isSome = decide (depth < b.settings.maxCallDepth.toNat) := by
    rw [levelAt, b.levelEnters]
    exact decide_eq_decide.mpr Nat.sub_pos_iff_lt
  cases op with
  | call c =>
    have cleared := f.callClears (b.levelAt depth) c
    simp only [Operation.enters, Invocation.enters, Issued.derives, room, cleared]
    rfl
  | deploy d =>
    have cleared := f.deployClears (b.levelAt depth) d
    simp only [Operation.enters, Invocation.enters, Issued.derives, room, cleared]
    rfl
  | query _ | update _ | ask _ | consumeGas _ | setGasLimit _ | commit => rfl

end Boundary

/-! The frame at the top. -/

namespace Program

variable [Host E]

def issues (level : Level ν E) : Program ν (Option Bytes) → Frame E → List (Issued E)
  | ret _, _ | raise _, _ | panic _, _ => []
  | note _ next, f => next.issues level f
  | perform op next, f =>
    level.issue f op :: (next (f.step level op).1).issues level (f.step level op).2.1

end Program

namespace Trace

def Item.isPerformed : Item ν → Bool
  | .performed _ _ => true
  | _ => false

end Trace

namespace Frame

variable [Host E]

theorem performInside (level : Level ν E) (f : Frame E) (i : Invocation) :
    (i.perform level f).2.2.filter Trace.Item.isPerformed = [] := by
  have ended := i.performEnded level f
  generalize i.perform level f = result at ended
  cases ended <;> rfl

theorem stepInside (level : Level ν E) (f : Frame E) (op : Operation) :
    (f.step level op).2.2.filter Trace.Item.isPerformed = [] := by
  cases op with
  | call c => exact performInside level f (.call c)
  | deploy d => exact performInside level f (.deploy d)
  | query _ | update _ | ask _ | consumeGas _ | setGasLimit _ | commit => rfl

end Frame

namespace Program

theorem execIssues [Host E] (level : Level ν E) (p : Program ν (Option Bytes)) (f : Frame E) :
    (p.exec level f).trace.filter Trace.Item.isPerformed = (p.issues level f).map Issued.item := by
  induction p generalizing f with
  | ret output | raise fault | panic text => rfl
  | note n next ih => exact ih f
  | perform op next ih =>
    simp only [exec, issues, List.filter_append, f.stepInside level op, List.nil_append, List.map_cons, ← ih]
    rfl

end Program

/-! The whole run. -/

namespace Operation

theorem entersMapped {F : Type} [Host E] [Host F] {φ : E → F} (mapping : Host.Mapping φ) {level : Level ν E}
    {other : Level ν F} (across : level.Mapping φ other) (f : Frame E) (op : Operation) :
    op.enters other (f.mapped φ) = op.enters level f := by
  have deeper : other.enter.isSome = level.enter.isSome := by
    cases entered : level.enter with
    | none =>
      rw [across.absent entered]
      rfl
    | some run =>
      obtain ⟨twin, also, -⟩ := across.runs run entered
      rw [also, Option.isSome_some, Option.isSome_some]
  cases op with
  | call c => simp only [enters, Invocation.enters, Invocation.admittedMapped mapping across, deeper]
  | deploy d => simp only [enters, Invocation.enters, Invocation.admittedMapped mapping across, deeper]
  | query _ | update _ | ask _ | consumeGas _ | setGasLimit _ | commit => rfl

theorem commitsAnswered (level : Level ν Overlay) (f : Frame Overlay) (op : Operation) :
    op.commitsAt level.depth = (level.issue f op).commits := by
  cases op with
  | commit =>
    simp only [commitsAt, Level.issue, Issued.commits, committed, Frame.step, Frame.commit]
    split
    · rename_i nested
      exact decide_eq_false (Nat.ne_of_gt nested)
    · rename_i top
      exact decide_eq_true (Nat.eq_zero_of_not_pos top)
  | query _ | update _ | ask _ | consumeGas _ | setGasLimit _ | call _ | deploy _ => rfl

end Operation

namespace Boundary

variable (b : Boundary ν)

theorem stepCounts (depth : Nat) (f : Frame (Counted Overlay)) (op : Operation) :
    let issued := (b.levelAt depth).issue (f.mapped Counted.inner) op
    Adds (issued.derives b depth).toNat issued.commits.toNat f.host (f.step (b.levelAt depth) op).2.1.host := by
  intro issued
  have across : Level.Mapping Counted.inner (b.levelAt depth : Level ν (Counted Overlay)) (b.levelAt depth) :=
    b.levelMapping innerMapping _ depth
  have derives : op.enters (b.levelAt depth) f = issued.derives b depth :=
    (Operation.entersMapped innerMapping across f op).symm.trans (b.entersDerives depth _ op)
  have commits : op.commitsAt (b.levelAt depth : Level ν (Counted Overlay)).depth = issued.commits :=
    across.depth ▸ Operation.commitsAnswered (b.levelAt depth) (f.mapped Counted.inner) op
  rw [← derives, ← commits]
  exact Frame.stepAdds (b.counting _ depth) f op

theorem execCounts (p : Program ν (Option Bytes)) (f : Frame (Counted Overlay)) :
    let issued := p.issues b.top (f.mapped Counted.inner)
    Adds (issued.countP (Issued.derives b 0)) (issued.countP Issued.commits) f.host (p.exec b.top f).host := by
  have across : Level.Mapping Counted.inner (b.top : Level ν (Counted Overlay)) b.top := b.levelMapping innerMapping _ 0
  induction p generalizing f with
  | ret output | raise fault | panic text => exact addsNothing f.host
  | note n next ih => exact ih f
  | perform op next ih =>
    have first := b.stepCounts 0 f op
    have later := ih (f.step b.top op).1 (f.step b.top op).2.1
    have counted (pick : Issued Overlay → Bool) (i : Issued Overlay) (rest : List (Issued Overlay)) :
        (i :: rest).countP pick = (pick i).toNat + rest.countP pick := by
      rw [List.countP_cons, Nat.add_comm]
      cases pick i <;> rfl
    simp only [Program.issues, Frame.stepMapped innerMapping across, counted]
    exact addsThen first later

end Boundary

namespace Launch

def issues [Host E] (b : Boundary ν) (host : E) (l : Launch) : List (Issued E) :=
  match l.admitted? b host with
  | none => []
  | some activation =>
    (b.interpreter activation).issues b.top (Frame.ofLimit (l.prepared host) activation.gasLimit)

theorem runIssues [Host E] (b : Boundary ν) (host : E) (l : Launch) :
    ((l.run b host).2.2.flatMap Trace.Item.items).filter Trace.Item.isPerformed = (l.issues b host).map Issued.item := by
  have ended := l.runEnded b host
  generalize l.run b host = result at ended
  cases ended with
  | declined failure absent =>
    rw [issues, absent]
    rfl
  | ran activation admitted =>
    rw [issues, admitted]
    simp only [Boundary.run, List.flatMap_cons, List.flatMap_nil, List.append_nil]
    exact (b.interpreter activation).execIssues b.top (Frame.ofLimit (l.prepared host) activation.gasLimit)

theorem runCounts (b : Boundary ν) (host : Counted Overlay) (l : Launch) :
    let issued := l.issues b host.inner
    Adds (issued.countP (Issued.derives b 0)) (issued.countP Issued.commits) host (l.run b host).2.1 := by
  have ended := l.runEnded b host
  generalize l.run b host = result at ended
  cases ended with
  | declined failure absent =>
    rw [issues, admittedMapped innerMapping, absent]
    exact addsNothing host
  | ran activation admitted =>
    rw [issues, admittedMapped innerMapping, admitted]
    have counts := b.execCounts (b.interpreter activation) (Frame.ofLimit (l.prepared host) activation.gasLimit)
    rw [preparedMapped innerMapping]
    cases l <;> exact ⟨counts.openInside, counts.derivations, counts.commits⟩

/-- A run over a host that counts comes to what it comes to over the host that is counted, and leaves that one as it
would be left. As many environments are counted as the frame at the top issued calls and deployments that were answered,
passed the check of the code and were not too deep, whether or not an environment could be opened for them; and as
many commits as it made. At any depth, one operation alone derives an environment only where these checks let it. -/
theorem countedRunAgrees (b : Boundary ν) (o : Overlay) (l : Launch) :
    let counted := l.run b (Counted.around o)
    let plain := l.run b o
    let issued := l.issues b o
    (plain.2.2.flatMap Trace.Item.items).filter Trace.Item.isPerformed = issued.map Issued.item ∧
      counted.1 = plain.1 ∧ counted.2.2 = plain.2.2 ∧ counted.2.1.inner = plain.2.1 ∧
      counted.2.1.derivations = issued.countP (Issued.derives b 0) ∧
      counted.2.1.commits = issued.countP Issued.commits ∧
      ∀ (depth : Nat) (f : Frame Overlay) (op : Operation),
        ((f.mapped Counted.around).step (b.levelAt depth) op).2.1.host.derivations =
          (((b.levelAt depth).issue f op).derives b depth).toNat := by
  intro counted plain issued
  have same : plain = (counted.1, counted.2.1.inner, counted.2.2) := l.runMapped innerMapping b (Counted.around o)
  have counts := l.runCounts b (Counted.around o)
  refine ⟨l.runIssues b o, ?_, ?_, ?_, ?_, ?_, ?_⟩
  · rw [same]
  · rw [same]
  · rw [same]
  · exact counts.derivations.trans (Nat.zero_add _)
  · exact counts.commits.trans (Nat.zero_add _)
  · intro depth f op
    exact (b.stepCounts depth (f.mapped Counted.around) op).derivations.trans (Nat.zero_add _)

end Launch
end CallBoundary
