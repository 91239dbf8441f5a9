import CallBoundary.Proofs.FailedAccess
import CallBoundary.Proofs.Moments
import CallBoundary.Proofs.Settlement
import CallBoundary.Proofs.Traces
/-! Entries of code. One that is there at some moment, if only an empty one, stays as it is, in its
frame and in all that are derived from it later: code is registered for deployments alone, and these
are refused where an entry is seen. -/
namespace CallBoundary

namespace View

def KeepsCode (v later : View) : Prop := ∀ address code, v.code address = some code → later.code address = some code

theorem keepsCodeRefl (v : View) : v.KeepsCode v := fun _ _ present => present

theorem keepsCodeTrans {v middle later : View} (first : v.KeepsCode middle) (second : middle.KeepsCode later) :
    v.KeepsCode later := fun address code present => second address code (first address code present)

theorem keepsSameCode {v later : View} (same : later.code = v.code) : v.KeepsCode later := by
  intro address code present
  rw [same, present]

end View

namespace Overlay

variable {o : Overlay}

theorem writeCode (o : Overlay) (f : Changes → Changes) (kept : ∀ c, (f c).code = c.code) :
    (o.write f).view.code = o.view.code := by
  funext address
  simp only [view, viewThrough, Changes.onto, write, kept]

theorem registerCode (o : Overlay) (contract : Address) (code : Bytes) (address : Address) :
    (o.write fun c => c.setCode contract code).view.code address =
      if address = contract then some code else o.view.code address := by
  simp only [view, viewThrough, Changes.onto, write, Changes.setCode, Std.ExtTreeMap.getElem?_insert,
    Std.LawfulEqCmp.compare_eq_iff_eq]
  by_cases same : contract = address
  · rw [if_pos same, if_pos same.symm]
    rfl
  · rw [if_neg same, if_neg (Ne.symm same)]

theorem registerKeeps {contract : Address} (vacant : o.view.code contract = none) (code : Bytes) :
    o.view.KeepsCode (o.write fun c => c.setCode contract code).view := by
  intro address present seen
  have other : address ≠ contract := by
    rintro rfl
    rw [vacant] at seen
    cases seen
  rw [registerCode, if_neg other, seen]

theorem transferCode (o : Overlay) (payer payee : Address) (amount : Amount) :
    (o.transfer payer payee amount).2.view.code = o.view.code := by
  by_cases covered : amount.value ≤ (o.view.balance payer).value
  · by_cases fits : o.held payer payee amount < Amount.limit
    · simp only [transferFits covered fits, paidOut, setBalanceView]
    · simp only [transferOverflows covered fits, paidOut, setBalanceView]
  · rw [transferUncovered covered]

theorem applyCode (o : Overlay) (u : Update) : (o.apply u).2.view.code = o.view.code := by
  cases u with
  | setStorage key value => exact o.writeCode (fun c => c.setStorage ⟨o.contract, key⟩ (some value)) fun _ => rfl
  | removeStorage key => exact o.writeCode (fun c => c.setStorage ⟨o.contract, key⟩ none) fun _ => rfl
  | send recipient amount => exact o.transferCode o.contract recipient amount
  | subBalance amount =>
    simp only [apply, debit]
    split
    · rfl
    · exact o.writeCode _ fun _ => rfl
  | addBalance address amount =>
    simp only [apply, credit]
    split
    · rfl
    · exact o.writeCode _ fun _ => rfl
  | emit name args => exact o.writeCode (fun c => c.emit ⟨o.contract, name, args⟩) fun _ => rfl

theorem updateCode (o : Overlay) (m : Meter) (u : Update) : (o.update m u).2.2.view.code = o.view.code := by
  simp only [update]
  split
  · rfl
  · split
    · rfl
    · exact o.applyCode u

theorem deriveCode {contract : Address} {amount : Amount} {deployment : Bool} {child : Overlay}
    (opened : o.derive contract amount deployment = (.ok (), child)) :
    child.contract = contract ∧ child.view.code = o.view.code ∧
      (deployment = true → o.view.code contract = none) := by
  have owned : child.contract = contract := by
    obtain ⟨changes, rfl⟩ := deriveNests opened
    rfl
  obtain ⟨vacant, moved⟩ := deriveOpens opened
  refine ⟨owned, ?_, vacant⟩
  rcases moved with rfl | transferred
  · rw [nestView]
  · have same := (o.nest (o.childContext contract amount) o.own.tariff o.own.debug).transferCode o.contract contract amount
    rwa [transferred, nestView] at same

theorem openedCode {activation : Activation} {amount : Amount} {child : Overlay}
    (opened : activation.opened? o amount = some child) :
    o.view.KeepsCode child.view ∧
      (activation.entry = .constructor → child.view.code activation.contract = some activation.code) := by
  obtain ⟨fresh, derived, rfl⟩ := activation.openedFrom opened
  obtain ⟨owned, same, vacant⟩ := deriveCode derived
  split
  · -- Registering takes no entry away, as the environment would not have been opened over one.
    rename_i deploys
    have unseen : fresh.view.code fresh.contract = none := by
      rw [owned, same]
      exact vacant (decide_eq_true deploys)
    have registered := registerCode fresh fresh.contract activation.code activation.contract
    rw [if_pos owned.symm] at registered
    exact ⟨View.keepsCodeTrans (View.keepsSameCode same) (registerKeeps unseen activation.code), fun _ => registered⟩
  · rename_i calls
    exact ⟨View.keepsSameCode same, fun deploys => (calls deploys).elim⟩

end Overlay

variable {ν : Type}

namespace Frame

def KeepsCode (f after : Frame Overlay) : Prop := f.host.view.KeepsCode after.host.view

theorem performKeeps (b : Boundary ν) (room depth : Nat)
    (below : (b.level room depth : Level ν Overlay).Traces fun f _ after => f.KeepsCode after) (f : Frame Overlay)
    (i : Invocation) : f.KeepsCode (i.perform (b.level room depth) f).2.1 := by
  rcases Invocation.performFolds b room depth f i with ⟨-, same⟩ | ⟨activation, callee, context, -, runs, -, nested, folded, -⟩
  · rw [KeepsCode, same]
    exact View.keepsCodeRefl _
  · obtain ⟨child, opened, inside⟩ := Level.calleeTraced below runs
    rw [KeepsCode, folded, (Overlay.settledNested nested).view]
    exact View.keepsCodeTrans (Overlay.openedCode opened).1 inside

theorem stepKeeps (b : Boundary ν) (room depth : Nat)
    (below : (b.level room depth : Level ν Overlay).Traces fun f _ after => f.KeepsCode after) (f : Frame Overlay)
    (op : Operation) : f.KeepsCode (f.step (b.level room depth) op).2.1 := by
  cases op with
  | query q => exact View.keepsSameCode (congrArg (fun o : Overlay => o.view.code) (f.queryHost q))
  | update u =>
    simp only [step, update]
    split
    · exact View.keepsCodeRefl f.host.view
    · rw [KeepsCode, recordIfHost]
      exact View.keepsSameCode (f.host.updateCode f.meter u)
  | ask p => exact View.keepsCodeRefl f.host.view
  | consumeGas gas => exact View.keepsCodeRefl f.host.view
  | setGasLimit limit => exact View.keepsCodeRefl f.host.view
  | commit =>
    simp only [step, commit]
    split
    · exact View.keepsCodeRefl f.host.view
    · have seen : f.host.commit.clear.view = f.host.view := f.host.commitView
      exact View.keepsSameCode (congrArg View.code seen)
  | call c => exact performKeeps b room depth below f (.call c)
  | deploy d => exact performKeeps b room depth below f (.deploy d)

end Frame

namespace Boundary

variable (b : Boundary ν)

theorem tracingCode : b.Tracing fun f _ after => Frame.KeepsCode f after where
  stays f := View.keepsCodeRefl f.host.view
  notes _ later := later
  performs room depth below f _ _ op later := View.keepsCodeTrans (f.stepKeeps b room depth below op) later

theorem movesKeep {m next : Moment ν Overlay} (moves : b.Moves m next) : m.frame.KeepsCode next.frame := by
  cases moves with
  | noted n next f => exact View.keepsCodeRefl f.host.view
  | performed op next f => exact f.stepKeeps b _ _ (b.tracingCode.below _ _) op
  | entered i next f admitted opened => exact (Overlay.openedCode opened).1

theorem laterKeeps {m later : Moment ν Overlay} (reached : b.Later m later) : m.frame.KeepsCode later.frame := by
  induction reached with
  | refl => exact View.keepsCodeRefl m.frame.host.view
  | tail reached moves ih => exact View.keepsCodeTrans ih (b.movesKeep moves)

end Boundary

theorem Frame.deployLeaves (b : Boundary ν) (room depth : Nat) (f : Frame Overlay) (d : Deployment) :
    let run := f.deploy (b.level room depth) d
    (∀ o, run.1 = .ok o → o.isSuccess = true → run.2.1.host.view.code o.contract = some d.code) ∧
      (¬ Succeeded run.1 → run.2.1.host.view.code = f.host.view.code) := by
  intro run
  rcases Invocation.performFolds b room depth f (.deploy d) with
    ⟨unsuccessful, same⟩ | ⟨activation, callee, context, admitted, runs, ⟨outcome, answered, success, contract⟩, nested, folded, -⟩
  · refine ⟨?_, fun _ => congrArg (fun o : Overlay => o.view.code) same⟩
    intro outcome answered success
    exact (unsuccessful (answered ▸ success)).elim
  · obtain ⟨-, -, deploys⟩ := Invocation.admittedGiven admitted
    obtain ⟨entry, code⟩ := deploys d rfl
    obtain ⟨child, opened, inside⟩ := Level.calleeTraced (b.tracingCode.below room depth) runs
    have registered := (Overlay.openedCode opened).2 entry
    have kept : callee.host.view.code activation.contract = some activation.code := inside _ _ registered
    refine ⟨?_, ?_⟩
    · rintro _ same -
      cases Except.ok.inj (answered.symm.trans same)
      have seen : run.2.1.host.view = callee.host.view := by
        rw [← (Overlay.settledNested nested).view]
        exact congrArg Overlay.view folded
      rw [contract, ← code, ← kept, seen]
    · intro unsuccessful
      exact (unsuccessful (answered ▸ success)).elim

namespace Launch

theorem preparedCode {o : Overlay} {l : Launch} (own : o.contract = l.contract) (vacant : l.Vacant o) :
    o.view.KeepsCode (l.prepared o).view ∧
      ∀ contract code args gasLimit, l = .deploy contract code args gasLimit →
        (l.prepared o).view.code contract = some code := by
  cases l with
  | execute contract method args gasLimit => exact ⟨View.keepsCodeRefl o.view, nofun⟩
  | deploy contract code args gasLimit =>
    have unseen : o.view.code o.contract = none := by
      rw [own]
      exact Option.map_eq_none_iff.mp vacant
    have registered := o.registerCode o.contract code contract
    rw [if_pos (show contract = o.contract from own.symm)] at registered
    refine ⟨Overlay.registerKeeps unseen code, ?_⟩
    rintro _ _ _ _ ⟨⟩
    exact registered

theorem runCode (b : Boundary ν) {o : Overlay} (l : Launch) (own : o.contract = l.contract) :
    o.view.KeepsCode (l.run b o).2.1.view ∧
      ∀ contract code args gasLimit, l = .deploy contract code args gasLimit → (l.run b o).1.isSuccess = true →
        (l.run b o).2.1.view.code (l.run b o).1.contract = some code := by
  have ended := l.runEnded b o
  generalize l.run b o = result at ended
  cases ended with
  | declined failure absent => exact ⟨View.keepsCodeRefl o.view, fun _ _ _ _ _ success => (Bool.false_ne_true success).elim⟩
  | ran activation admitted =>
    obtain ⟨contract, -, -, vacant⟩ := admittedGiven admitted
    obtain ⟨kept, registered⟩ := preparedCode own vacant
    have inside := b.tracingCode.execTop (b.interpreter activation) (Frame.ofLimit (l.prepared o) activation.gasLimit)
    refine ⟨View.keepsCodeTrans kept inside, ?_⟩
    intro target code args gasLimit deploys _
    have placed : activation.contract = target := by rw [contract, deploys]; rfl
    have left := inside target code (registered target code args gasLimit deploys)
    rw [← placed] at left
    exact left

/-- An entry of code that is there at some moment is there at all later ones, in its own frame as in those
derived from it; the moments of a launch in the environment of its contract begin with all entries there
are and end with all that are left, and each callee runs from one moment to a later one. A deployment that
succeeds leaves just its code where its outcome says; a nested one that does not leaves all entries as
they were. -/
theorem codeStays (b : Boundary ν) (o : Overlay) (l : Launch) (own : o.contract = l.contract) :
    (∀ m later : Moment ν Overlay, b.Later m later → m.frame.host.view.KeepsCode later.frame.host.view) ∧
      (∀ start, l.start? b o = some start → o.view.KeepsCode start.frame.host.view ∧
        ∃ last, b.Later start last ∧ last.frame.host = (l.run b o).2.1) ∧
      (∀ (room depth : Nat) (f : Frame Overlay) (i : Invocation) next callee,
        i.callee? (b.level (room + 1) depth) f = some callee →
          ∃ first last, b.Moves ⟨room + 1, depth, .perform i.operation next, f⟩ first ∧ b.Later first last ∧
            last.frame = callee.toFrame) ∧
      o.view.KeepsCode (l.run b o).2.1.view ∧
      (∀ contract code args gasLimit, l = .deploy contract code args gasLimit → (l.run b o).1.isSuccess = true →
        (l.run b o).2.1.view.code (l.run b o).1.contract = some code) ∧
      ∀ (room depth : Nat) (f : Frame Overlay) (d : Deployment),
        let run := f.deploy (b.level room depth) d
        (∀ outcome, run.1 = .ok outcome → outcome.isSuccess = true →
          run.2.1.host.view.code outcome.contract = some d.code) ∧
        (¬ Succeeded run.1 → run.2.1.host.view.code = f.host.view.code) := by
  refine ⟨fun _ _ reached => b.laterKeeps reached, ?_, ?_, ?_, ?_, fun room depth f d => f.deployLeaves b room depth d⟩
  · intro start starts
    refine ⟨?_, l.runLater b o starts⟩
    obtain ⟨activation, admitted, rfl⟩ := Option.map_eq_some_iff.mp starts
    exact (preparedCode own (admittedGiven admitted).2.2.2).1
  · intro room depth f i next callee runs
    exact b.calleeLater runs next
  · exact (l.runCode b own).1
  · exact (l.runCode b own).2

def founded : Address := FixedBytes.zero

def founding : Boundary Unit := ⟨fun _ => pure none, Settings.standard⟩

def foundingRoot : Overlay :=
  Overlay.root Settings.standard ⟨founded, founded, founded, Amount.zero⟩
    { code := (∅ : Std.ExtTreeMap Address Bytes).insert (FixedBytes.last 20 [1]) [] }

def foundingLaunch : Launch := .deploy founded [] [] 0

theorem foundedStays :
    foundingRoot.contract = foundingLaunch.contract ∧
      (foundingLaunch.run founding foundingRoot).2.1.view.code (FixedBytes.last 20 [1]) = some [] ∧
      (foundingLaunch.run founding foundingRoot).2.1.view.code founded = some [] := by
  have own : foundingRoot.contract = foundingLaunch.contract := rfl
  obtain ⟨-, -, -, kept, registered, -⟩ := foundingLaunch.codeStays founding foundingRoot own
  have before : foundingRoot.view.code (FixedBytes.last 20 [1]) = some [] := by decide +kernel
  have success : (foundingLaunch.run founding foundingRoot).1.isSuccess = true := by decide +kernel
  exact ⟨own, kept _ _ before, registered founded [] [] 0 rfl success⟩

end Launch
end CallBoundary
