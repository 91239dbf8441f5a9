import CallBoundary.Proofs.SideBySide
/-! Calls of contracts that leave each other alone. A callee that reads no cells but its own and writes nothing but
those cannot tell whether another such callee has run before it, and the writes of the two can be laid over each
other in either order. So a frame may issue the two calls in either order. -/
namespace CallBoundary

structure Changes.KeptTo (contract : Address) (w : Changes) : Prop where
  storage : ∀ cell : Cell, cell.contract ≠ contract → w.storage[cell]? = none
  balances : w.balances = ∅
  code : w.code = ∅
  events : w.events = []

namespace Changes

variable {contract other : Address} {w v : Changes}

theorem emptyKept : empty.KeptTo contract := ⟨fun _ _ => Std.ExtTreeMap.getElem?_empty, rfl, rfl, rfl⟩

theorem setStorageKept (kept : w.KeptTo contract) (key : Bytes) (value : Option Bytes) :
    (w.setStorage ⟨contract, key⟩ value).KeptTo contract := by
  refine { kept with storage := ?_ }
  intro cell foreign
  have apart : compare (⟨contract, key⟩ : Cell) cell ≠ .eq := fun same =>
    foreign (congrArg Cell.contract (Std.LawfulEqOrd.eq_of_compare same)).symm
  simp only [setStorage, Std.ExtTreeMap.getElem?_insert, if_neg apart, kept.storage cell foreign]

theorem keptCommutes (kept : w.KeptTo contract) (alsoKept : v.KeptTo other) (distinct : contract ≠ other) :
    w.merge v = v.merge w := by
  have storage : w.storage ∪ v.storage = v.storage ∪ w.storage := by
    apply Std.ExtTreeMap.ext_getElem?
    intro cell
    rw [Std.ExtTreeMap.getElem?_union, Std.ExtTreeMap.getElem?_union]
    by_cases own : cell.contract = contract
    · rw [alsoKept.storage cell (own ▸ distinct), Option.none_or, Option.or_none]
    · rw [kept.storage cell own, Option.none_or, Option.or_none]
  simp only [merge, storage, kept.balances, alsoKept.balances, kept.code, alsoKept.code, kept.events, alsoKept.events]

end Changes

theorem Overlay.absorbKeptAlike (o : Overlay) {contract other : Address} {w : Changes} (kept : w.KeptTo other)
    (distinct : contract ≠ other) : o.Alike (fun cell => cell.contract = contract) True (o.absorb w) where
  contract := rfl
  payAmount := rfl
  tariff := rfl
  debug := rfl
  identities := rfl
  chain := rfl
  storage := by
    intro cell own
    simp only [absorbView, Changes.onto, kept.storage cell (own ▸ distinct), Option.getD_none]
  balance := by simp [absorbView, Changes.onto, kept.balances]
  code := by simp [absorbView, Changes.onto, kept.code]
  caller _ := rfl
  originalCaller _ := rfl

/-! Programs that keep to the cells of their own contract. -/

def Operation.KeepsTo (contract : Address) : Operation → Prop
  | query q => q.Within (fun cell => cell.contract = contract) True contract
  | update (.setStorage _ _) | update (.removeStorage _) => True
  | ask _ | consumeGas _ | setGasLimit _ => True
  | update _ | commit | call _ | deploy _ => False

def Program.KeepsTo {ν α : Type} (contract : Address) : Program ν α → Prop
  | ret _ | raise _ | panic _ => True
  | note _ next => next.KeepsTo contract
  | perform op next => op.KeepsTo contract ∧ ∀ answer, (next answer).KeepsTo contract

variable {ν : Type} {contract : Address}

theorem Operation.keepsWithin {op : Operation} (keeps : op.KeepsTo contract) :
    op.Within (fun cell => cell.contract = contract) True contract := by
  cases op with
  | query q => exact keeps
  | ask p => cases p <;> trivial
  | update u => trivial
  | consumeGas _ | setGasLimit _ => trivial
  | commit | call _ | deploy _ => exact keeps

namespace Frame

structure KeptTo (contract : Address) (f : Frame Overlay) : Prop where
  own : f.host.contract = contract
  writes : f.host.own.changes.KeptTo contract

variable {level : Level ν Overlay} {f : Frame Overlay}

theorem updateKept (kept : f.KeptTo contract) {u : Update} (keeps : (Operation.update u).KeepsTo contract) :
    (f.update u).2.KeptTo contract := by
  have wrote (key : Bytes) (value : Option Bytes) :
      (f.host.own.changes.setStorage ⟨f.host.contract, key⟩ value).KeptTo contract := by
    rw [kept.own]
    exact Changes.setStorageKept kept.writes key value
  have stored : (f.host.update f.meter u).2.2.contract = contract ∧
      (f.host.update f.meter u).2.2.own.changes.KeptTo contract := by
    simp only [Overlay.update]
    split
    · exact ⟨kept.own, kept.writes⟩
    · split
      · exact ⟨kept.own, kept.writes⟩
      · cases u with
        | setStorage key value => exact ⟨kept.own, wrote key (some value)⟩
        | removeStorage key => exact ⟨kept.own, wrote key none⟩
        | send _ _ | subBalance _ | addBalance _ _ | emit _ _ => exact keeps.elim
  unfold update
  split
  · exact kept
  · refine ⟨?_, ?_⟩ <;> rw [recordIfHost]
    · exact stored.1
    · exact stored.2

theorem stepKept (kept : f.KeptTo contract) {op : Operation} (keeps : op.KeepsTo contract) :
    (f.step level op).2.1.KeptTo contract := by
  cases op with
  | query q =>
    have same := f.queryHost q
    exact ⟨same ▸ kept.own, same ▸ kept.writes⟩
  | update u => exact updateKept kept keeps
  | ask p => exact kept
  | consumeGas gas => exact ⟨kept.own, kept.writes⟩
  | setGasLimit limit => exact ⟨kept.own, kept.writes⟩
  | commit | call c | deploy d => exact keeps.elim

end Frame

namespace Program

variable (level : Level ν Overlay) {p : Program ν (Option Bytes)} {f g : Frame Overlay}

theorem execKept (kept : f.KeptTo contract) (keeps : p.KeepsTo contract) : (p.exec level f).toFrame.KeptTo contract := by
  induction p generalizing f with
  | ret output | raise fault | panic text => exact kept
  | note n next ih => exact ih kept keeps
  | perform op next ih => exact ih _ (Frame.stepKept kept keeps.1) (keeps.2 _)

theorem execAbreast (kept : f.KeptTo contract) (keeps : p.KeepsTo contract)
    (alike : f.Alike (fun cell => cell.contract = contract) True g) :
    Frame.RanAbreast f g (p.exec level f) (p.exec level g) := by
  induction p generalizing f g with
  | ret output | raise fault | panic text => exact ⟨rfl, _, _, Frame.abreastStill alike.meter⟩
  | note n next ih => exact ⟨(ih kept keeps alike).ending, (ih kept keeps alike).frames⟩
  | perform op next ih =>
    have within : op.Within (fun cell => cell.contract = contract) True f.host.contract := by
      rw [kept.own]
      exact Operation.keepsWithin keeps.1
    obtain ⟨answers, w, rs, stepped⟩ := Frame.stepAbreast level level rfl (fun _ => rfl) alike within
    obtain ⟨ending, later, ss, rest⟩ := ih (f.step level op).1 (Frame.stepKept kept keeps.1) (keeps.2 _)
      (Frame.abreastAlike alike stepped)
    simp only [exec, answers]
    exact ⟨ending, _, _, Frame.abreastThen stepped rest⟩

end Program

/-! Calls without an amount. -/

namespace Frame

variable {b : Boundary ν} {room depth : Nat} {f g : Frame Overlay} {c : Call}

theorem enterKept {a : Activation} (called : a.entry ≠ .constructor) (keeps : (b.interpreter a).KeepsTo a.contract)
    (alike : f.host.Alike (fun cell => cell.contract = a.contract) True g.host)
    (meter : g.meter = f.meter) (attempt : Attempt) {amount : Amount} (free : amount = Amount.zero) :
    (g.enter (b.level room depth) attempt amount a).1 = (f.enter (b.level room depth) attempt amount a).1 ∧
      ∃ w rs, w.KeptTo a.contract ∧ Abreast w rs f g (f.enter (b.level room depth) attempt amount a).2.1
        (g.enter (b.level room depth) attempt amount a).2.1 := by
  subst free
  have opened (o : Overlay) := a.openedFree called o
  have fresh (o : Overlay) : (ofLimit (o.child a.contract Amount.zero) a.gasLimit).KeptTo a.contract :=
    ⟨rfl, Changes.emptyKept⟩
  cases room with
  | zero => exact ⟨rfl, _, _, Changes.emptyKept, recordAbreast (abreastStill meter) _⟩
  | succ room =>
    have below (child twin : Overlay) (here : a.opened? f.host Amount.zero = some child)
        (there : a.opened? g.host Amount.zero = some twin)
        (similar : child.Alike (fun cell => cell.contract = a.contract) True twin) :=
      Program.execAbreast (b.level room (depth + 1)) (f := ofLimit child a.gasLimit) (g := ofLimit twin a.gasLimit)
        (Option.some.inj ((opened f.host).symm.trans here) ▸ fresh f.host) keeps ⟨rfl, rfl, similar⟩
    obtain ⟨answers, w, rs, source, abreast⟩ :=
      enterAbreast (b.level (room + 1) depth) (b.level (room + 1) depth) rfl rfl alike meter attempt Amount.zero a below
    refine ⟨answers, w, rs, ?_, abreast⟩
    -- Nothing is taken up from a callee that failed, and from any other what it holds back.
    rcases source with rfl | ⟨callee, runs, rfl⟩
    · exact Changes.emptyKept
    · simp only [Level.callee?, opened] at runs
      cases runs
      exact (Program.execKept _ (fresh f.host) keeps).writes

theorem callKept (free : c.amount = Amount.zero)
    (keeps : ∀ activation, (Invocation.call c).admitted? (b.level room depth) f = some activation →
      (b.interpreter activation).KeepsTo c.contract)
    (alike : f.host.Alike (fun cell => cell.contract = c.contract) True g.host) (meter : g.meter = f.meter) :
    (g.call (b.level room depth) c).1 = (f.call (b.level room depth) c).1 ∧
      ∃ w rs, w.KeptTo c.contract ∧
        Abreast w rs f g (f.call (b.level room depth) c).2.1 (g.call (b.level room depth) c).2.1 := by
  cases admitted : (Invocation.call c).admitted? (b.level room depth) f with
  | none =>
    obtain ⟨answers, rs, abreast⟩ :=
      Invocation.unadmittedAbreast (b.level room depth) (b.level room depth) alike meter admitted
    exact ⟨answers, _, rs, Changes.emptyKept, abreast⟩
  | some a =>
    obtain ⟨code, rfl⟩ : ∃ code, a = c.activation code (b.level room depth : Level ν Overlay).settings.debug := by
      simp only [Invocation.admitted?] at admitted
      split at admitted
      · cases admitted
      · obtain ⟨code, -, same⟩ := Option.map_eq_some_iff.mp admitted
        exact ⟨code, same.symm⟩
    have alsoAdmitted := (Invocation.admittedBoth rfl alike meter (.call c)).trans admitted
    have entered : f.call (b.level room depth) c = _ := Invocation.performEntered admitted
    have alsoEntered : g.call (b.level room depth) c = _ := Invocation.performEntered alsoAdmitted
    obtain ⟨answers, w, rs, kept, abreast⟩ :=
      enterKept (a := c.activation code _) Entry.noConfusion (keeps _ admitted) alike meter c.attempt free
    rw [entered, alsoEntered]
    exact ⟨congrArg Except.ok answers, w, rs, kept, abreast⟩

end Frame

/-- Two calls of different contracts that keep to their own cells, issued one after the other without amounts, may change
places. Each has the same answer first and second, the caller's environment is the very same in the end and so is its
meter, and the reports are those that each call adds by itself, only the order is another. -/
theorem Boundary.siblingCallsCommute (b : Boundary ν) (room depth : Nat) (f : Frame Overlay) (first second : Call)
    (distinct : first.contract ≠ second.contract) (free : first.amount = Amount.zero)
    (alsoFree : second.amount = Amount.zero)
    (keeps : ∀ activation, (Invocation.call first).admitted? (b.level room depth) f = some activation →
      (b.interpreter activation).KeepsTo first.contract)
    (alsoKeeps : ∀ activation, (Invocation.call second).admitted? (b.level room depth) f = some activation →
      (b.interpreter activation).KeepsTo second.contract) :
    let level := b.level room depth
    let afterFirst := (f.call level first).2.1
    let afterSecond := (f.call level second).2.1
    let inOrder := (afterFirst.call level second).2.1
    let swapped := (afterSecond.call level first).2.1
    (afterSecond.call level first).1 = (f.call level first).1 ∧ (afterFirst.call level second).1 = (f.call level second).1 ∧
      swapped.host = inOrder.host ∧ swapped.meter = inOrder.meter ∧
      ∃ rs ss, afterFirst.reports = f.reports ++ rs ∧ afterSecond.reports = f.reports ++ ss ∧
        inOrder.reports = f.reports ++ rs ++ ss ∧ swapped.reports = f.reports ++ ss ++ rs := by
  intro level afterFirst afterSecond inOrder swapped
  have itself (contract : Address) := f.host.alikeRefl (fun cell => cell.contract = contract) True
  obtain ⟨-, w, _, kept, one⟩ := Frame.callKept free keeps (itself _) rfl
  obtain ⟨-, v, _, alsoKept, other⟩ := Frame.callKept alsoFree alsoKeeps (itself _) rfl
  -- Each call is compared with the same call after the other one.
  have late : f.host.Alike (fun cell => cell.contract = first.contract) True afterSecond.host :=
    other.took.first ▸ f.host.absorbKeptAlike alsoKept distinct
  have alsoLate : f.host.Alike (fun cell => cell.contract = second.contract) True afterFirst.host :=
    one.took.first ▸ f.host.absorbKeptAlike kept (Ne.symm distinct)
  obtain ⟨answer, w, rs, kept, one⟩ := Frame.callKept free keeps late (f.callMeter level second)
  obtain ⟨alsoAnswer, v, ss, alsoKept, other⟩ := Frame.callKept alsoFree alsoKeeps alsoLate (f.callMeter level first)
  refine ⟨answer, alsoAnswer, ?_, ?_, rs, ss, one.first, other.first, ?_, ?_⟩
  · calc swapped.host = (f.host.absorb v).absorb w := by rw [one.took.second, ← other.took.first]
      _ = (f.host.absorb w).absorb v := by
        rw [Overlay.absorbAbsorb, Overlay.absorbAbsorb, Changes.keptCommutes kept alsoKept distinct]
      _ = inOrder.host := by rw [other.took.second, ← one.took.first]
  · rw [one.meter, other.meter, f.callMeter, f.callMeter]
  · rw [other.second, ← one.first]
  · rw [one.second, ← other.first]

namespace Boundary

def elder : Address := FixedBytes.zero

def younger : Address := FixedBytes.last 20 [1]

def siblings : Boundary Unit where
  settings := Settings.standard
  interpreter a :=
    if a.contract = elder then
      .perform (.update (.setStorage [1] [7])) fun _ => .perform (.query .blockNumber) fun _ => .ret (some [7])
    else
      .perform (.query (.storage [1])) fun _ => .perform (.update (.removeStorage [1])) fun _ => .raise (.failed "no more")

theorem siblingsKeep (a : Activation) : (siblings.interpreter a).KeepsTo a.contract := by
  simp only [siblings]
  split
  · exact ⟨trivial, fun _ => ⟨trivial, fun _ => trivial⟩⟩
  · exact ⟨rfl, fun _ => ⟨trivial, fun _ => trivial⟩⟩

def siblingsFrame : Frame Overlay :=
  Frame.ofLimit (Overlay.root Settings.standard ⟨elder, elder, elder, Amount.zero⟩
    { code := ((∅ : Std.ExtTreeMap Address Bytes).insert elder [1]).insert younger [1] }) 0

def siblingCall (contract : Address) : Call := ⟨contract, "run", [], Amount.zero, [], 0⟩

theorem siblingsSwapped :
    let level := siblings.level 1 0
    let afterElder := (siblingsFrame.call level (siblingCall elder)).2.1
    let afterYounger := (siblingsFrame.call level (siblingCall younger)).2.1
    elder ≠ younger ∧ (siblingsFrame.call level (siblingCall elder)).1.toOption.map Outcome.isSuccess = some true ∧
      (siblingsFrame.call level (siblingCall younger)).1.toOption.map Outcome.isSuccess = some false ∧
      (afterYounger.call level (siblingCall elder)).1 = (siblingsFrame.call level (siblingCall elder)).1 ∧
      (afterElder.call level (siblingCall younger)).1 = (siblingsFrame.call level (siblingCall younger)).1 ∧
      (afterYounger.call level (siblingCall elder)).2.1.host = (afterElder.call level (siblingCall younger)).2.1.host := by
  have keeps (contract : Address) (activation : Activation)
      (admitted : (Invocation.call (siblingCall contract)).admitted? (siblings.level 1 0) siblingsFrame = some activation) :
      (siblings.interpreter activation).KeepsTo (siblingCall contract).contract := by
    obtain ⟨code, -, rfl⟩ := Option.map_eq_some_iff.mp admitted
    exact siblingsKeep ((siblingCall contract).activation code _)
  have distinct : elder ≠ younger := by decide
  have swapped := siblings.siblingCallsCommute 1 0 siblingsFrame (siblingCall elder) (siblingCall younger) distinct rfl rfl
    (keeps elder) (keeps younger)
  exact ⟨distinct, by decide +kernel, by decide +kernel, swapped.1, swapped.2.1, swapped.2.2.1⟩

end Boundary
end CallBoundary
