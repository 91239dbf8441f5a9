import CallBoundary.Overlay
import CallBoundary.Proofs.Invocations
import CallBoundary.Proofs.Runs
/-! What a frame below the top can change. None of its operations reaches under its environment: its
own commit is refused, and the environments of its callees are closed again before it goes on. So
whatever runs in an environment changes the writes held in it and nothing else. -/
namespace CallBoundary

namespace Overlay

def WritesOnly (before after : Overlay) : Prop := ∃ changes, after = before.write fun _ => changes

variable {o middle after : Overlay}

theorem writesOnlyRefl (o : Overlay) : WritesOnly o o := ⟨o.own.changes, rfl⟩

theorem writesOnlyTrans (first : WritesOnly o middle) (second : WritesOnly middle after) : WritesOnly o after := by
  obtain ⟨_, rfl⟩ := first
  obtain ⟨last, rfl⟩ := second
  exact ⟨last, rfl⟩

theorem writeWritesOnly (o : Overlay) (f : Changes → Changes) : WritesOnly o (o.write f) := ⟨f o.own.changes, rfl⟩

theorem debitWritesOnly {address : Address} {amount : Amount} (ok : o.debit address amount = .ok after) :
    WritesOnly o after := by
  unfold debit at ok
  split at ok
  · cases ok
  · cases ok
    exact writeWritesOnly o _

theorem creditWritesOnly {address : Address} {amount : Amount} (ok : o.credit address amount = .ok after) :
    WritesOnly o after := by
  unfold credit at ok
  split at ok
  · cases ok
  · cases ok
    exact writeWritesOnly o _

theorem settleWritesOnly {attempt : Except Fault Overlay} (ok : ∀ {after}, attempt = .ok after → WritesOnly o after) :
    WritesOnly o (o.settle attempt).2 := by
  cases attempt with
  | error fault => exact writesOnlyRefl o
  | ok after => exact ok rfl

theorem transferWritesOnly (o : Overlay) (payer payee : Address) (amount : Amount) :
    WritesOnly o (o.transfer payer payee amount).2 := by
  unfold transfer
  cases paid : o.debit payer amount with
  | error fault => exact writesOnlyRefl o
  | ok debited => exact writesOnlyTrans (debitWritesOnly paid) (settleWritesOnly creditWritesOnly)

theorem applyWritesOnly (o : Overlay) (u : Update) : WritesOnly o (o.apply u).2 := by
  cases u with
  | setStorage key value => exact o.writeWritesOnly fun c => c.setStorage ⟨o.contract, key⟩ (some value)
  | removeStorage key => exact o.writeWritesOnly fun c => c.setStorage ⟨o.contract, key⟩ none
  | send recipient amount => exact o.transferWritesOnly o.contract recipient amount
  | subBalance amount => exact settleWritesOnly debitWritesOnly
  | addBalance address amount => exact settleWritesOnly creditWritesOnly
  | emit name args => exact o.writeWritesOnly fun c => c.emit ⟨o.contract, name, args⟩

theorem updateWritesOnly (o : Overlay) (m : Meter) (u : Update) : WritesOnly o (o.update m u).2.2 := by
  simp only [update]
  split
  · exact writesOnlyRefl o
  · split
    · exact writesOnlyRefl o
    · exact o.applyWritesOnly u

/-! Opening and closing. -/

theorem deriveRefused {contract : Address} {amount : Amount} {deployment : Bool} {fault : Fault}
    (refused : o.derive contract amount deployment = (.error fault, after)) : after = o := by
  simp only [derive] at refused
  split at refused
  · cases refused
    rfl
  · split at refused
    · cases refused
    · split at refused
      · cases refused
      · cases refused
        rfl

theorem deriveOpens {contract : Address} {amount : Amount} {deployment : Bool} {child : Overlay}
    (opened : o.derive contract amount deployment = (.ok (), child)) :
    (deployment = true → o.view.code contract = none) ∧
      (child = o.nest (o.childContext contract amount) o.own.tariff o.own.debug ∨
        (o.nest (o.childContext contract amount) o.own.tariff o.own.debug).transfer o.contract contract amount =
          (.ok (), child)) := by
  simp only [derive] at opened
  split at opened
  · cases opened
  · rename_i vacant
    refine ⟨?_, ?_⟩
    · rintro rfl
      simpa using vacant
    · split at opened
      · cases opened
        exact .inl rfl
      · split at opened
        · rename_i transferred
          cases opened
          exact .inr transferred
        · cases opened

theorem deriveNests {contract : Address} {amount : Amount} {deployment : Bool} {child : Overlay}
    (opened : o.derive contract amount deployment = (.ok (), child)) :
    WritesOnly (o.nest (o.childContext contract amount) o.own.tariff o.own.debug) child := by
  rcases (deriveOpens opened).2 with rfl | transferred
  · exact writesOnlyRefl _
  · have moved := transferWritesOnly (o.nest (o.childContext contract amount) o.own.tariff o.own.debug) o.contract
      contract amount
    rwa [transferred] at moved

theorem openedAsChild {activation : Activation} {amount : Amount} {child : Overlay}
    (opened : activation.opened? o amount = some child) :
    WritesOnly (o.nest (o.childContext activation.contract amount) o.own.tariff o.own.debug) child := by
  obtain ⟨fresh, derived, rfl⟩ := activation.openedFrom opened
  refine writesOnlyTrans (deriveNests derived) ?_
  split
  · exact writeWritesOnly fresh _
  · exact writesOnlyRefl fresh

theorem openedNests {activation : Activation} {amount : Amount} {child : Overlay}
    (opened : activation.opened? o amount = some child) :
    ∃ context, WritesOnly (o.nest context o.own.tariff o.own.debug) child :=
  ⟨_, openedAsChild opened⟩

variable {context : Context} {tariff : Tariff} {debug : Bool} {child : Overlay}

theorem releaseNested (nested : WritesOnly (o.nest context tariff debug) child) : child.release = o := by
  obtain ⟨changes, rfl⟩ := nested
  rfl

theorem commitNested (nested : WritesOnly (o.nest context tariff debug) child) :
    child.commit.release = o.absorb child.own.changes := by
  obtain ⟨changes, rfl⟩ := nested
  rfl

end Overlay

open Overlay

def Frame.Confined (depth : Nat) (f after : Frame Overlay) : Prop := 0 < depth → WritesOnly f.host after.host

variable {ν : Type}

theorem Level.calleeNests {level : Level ν Overlay} (guarantees : level.Guarantees Frame.Confined) {o : Overlay}
    {amount : Amount} {activation : Activation} {callee : Finished ν Overlay}
    (runs : level.callee? o amount activation = some callee) :
    ∃ context, WritesOnly (o.nest context o.own.tariff o.own.debug) callee.host := by
  simp only [Level.callee?, Option.bind_eq_bind, Option.bind_eq_some_iff, Option.some.injEq] at runs
  obtain ⟨run, deeper, child, opened, rfl⟩ := runs
  obtain ⟨context, nested⟩ := openedNests opened
  have inside := guarantees run deeper child activation (Nat.succ_pos level.depth)
  exact ⟨context, writesOnlyTrans nested inside⟩

theorem Invocation.calleeNests {level : Level ν Overlay} (guarantees : level.Guarantees Frame.Confined)
    {f : Frame Overlay} {i : Invocation} {callee : Finished ν Overlay} (runs : i.callee? level f = some callee) :
    ∃ context, WritesOnly (f.host.nest context f.host.own.tariff f.host.own.debug) callee.host := by
  simp only [Invocation.callee?, Option.bind_eq_bind, Option.bind_eq_some_iff] at runs
  obtain ⟨activation, -, entered⟩ := runs
  exact Level.calleeNests guarantees entered

namespace Frame

theorem closeNested {callee : Finished ν Overlay} {o : Overlay} {context : Context} {tariff : Tariff} {debug : Bool}
    (nested : WritesOnly (o.nest context tariff debug) callee.host) :
    close callee =
      (callee.result, if callee.result.isOk then o.absorb callee.host.own.changes else o, none) := by
  unfold close
  cases ended : callee.result with
  | error failure => rw [← releaseNested nested]; rfl
  | ok output => rw [← commitNested nested]; rfl

theorem declinedHost {o : Overlay} {answer : Except Fault Outcome} {after : Frame Overlay}
    (declined : Declined o answer after) : after.host = o := by
  rcases declined.kept with same | ⟨contract, amount, deployment, fault, refused⟩
  · exact same
  · exact deriveRefused refused

theorem performConfined {level : Level ν Overlay} (guarantees : level.Guarantees Confined) (f : Frame Overlay)
    (i : Invocation) : WritesOnly f.host (i.perform level f).2.1.host := by
  rcases i.performCases level f with ⟨-, declined⟩ | ⟨callee, runs, closed⟩
  · rw [declinedHost declined]
    exact writesOnlyRefl f.host
  · obtain ⟨context, nested⟩ := Invocation.calleeNests guarantees runs
    rw [closed.host, closeNested nested]
    dsimp only
    split
    · exact f.host.writeWritesOnly _
    · exact writesOnlyRefl f.host

theorem updateConfined (f : Frame Overlay) (u : Update) : WritesOnly f.host (f.update u).2.host := by
  unfold update
  split
  · exact writesOnlyRefl f.host
  · rw [recordIfHost]
    exact f.host.updateWritesOnly f.meter u

theorem stepWritesOnly (level : Level ν Overlay) (guarantees : level.Guarantees Confined) (f : Frame Overlay)
    (op : Operation) (nested : op = .commit → 0 < level.depth) : WritesOnly f.host (f.step level op).2.1.host := by
  cases op with
  | query q => exact (f.queryHost q) ▸ writesOnlyRefl f.host
  | update u => exact f.updateConfined u
  | ask p => exact writesOnlyRefl f.host
  | consumeGas gas => exact writesOnlyRefl f.host
  | setGasLimit limit => exact writesOnlyRefl f.host
  | commit =>
    simp only [step, commit, if_pos (nested rfl)]
    exact writesOnlyRefl f.host
  | call c => exact performConfined guarantees f (.call c)
  | deploy d => exact performConfined guarantees f (.deploy d)

theorem stepConfined (level : Level ν Overlay) (guarantees : level.Guarantees Confined) (f : Frame Overlay)
    (op : Operation) : Confined level.depth f (f.step level op).2.1 :=
  fun below => stepWritesOnly level guarantees f op fun _ => below

theorem closeUncovers (callee : Finished ν Overlay) {layer : Layer} {rest : List Layer}
    (nested : callee.host.below = layer :: rest) :
    ∃ changes, (close callee).2.1 = ⟨{ layer with changes }, rest, callee.host.store⟩ := by
  unfold close
  cases callee.result with
  | error failure =>
    refine ⟨layer.changes, ?_⟩
    simp only [Host.release, release, nested]
  | ok output =>
    refine ⟨layer.changes.merge callee.host.own.changes, ?_⟩
    simp only [Host.release, Host.commit, release, Overlay.commit, write, nested]

end Frame

theorem Boundary.confined (b : Boundary ν) (room depth : Nat) :
    (b.level room depth : Level ν Overlay).Guarantees Frame.Confined :=
  b.guarantees (fun _ f _ => writesOnlyRefl f.host)
    (fun first second below => writesOnlyTrans (first below) (second below)) Frame.stepConfined room depth

end CallBoundary
