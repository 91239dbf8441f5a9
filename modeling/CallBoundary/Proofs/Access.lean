import CallBoundary.Host
/-! Environments in use. An access is one operation on the innermost environment of a chain, with
the meter in hand; a run is any number of them, each answered in turn. A mapping between two hosts
that every single operation goes through carries over to every run. -/
namespace CallBoundary

inductive Access where
  | query (q : Query)
  | update (u : Update)
  | derive (contract : Address) (amount : Amount) (deployment : Bool)
  | release
  | codeAt (address : Address)
  | codeHashAt (address : Address)
  | register (code : Bytes)
  | commit
  | clear
  | askDebug
  | takeMeter (m : Meter)
  deriving DecidableEq, Repr

namespace Access

abbrev Answer : Access → Type
  | query q => Except Fault q.Answer
  | update _ | derive _ _ _ | commit => Except Fault Unit
  | codeAt _ => Option Bytes
  | codeHashAt _ => Option Hash
  | askDebug => Bool
  | release | register _ | clear | takeMeter _ => Unit

variable {E F : Type} [Host E] [Host F]

def perform (host : E) (m : Meter) : (a : Access) → a.Answer × Meter × E
  | .query q => let (answer, meter) := Host.query host m q; (answer, meter, host)
  | .update u => Host.update host m u
  | .derive contract amount deployment =>
    let (answer, after) := Host.derive host contract amount deployment; (answer, m, after)
  | .release => ((), m, Host.release host)
  | .codeAt address => (Host.code? host address, m, host)
  | .codeHashAt address => (Host.codeHash? host address, m, host)
  | .register code => ((), m, Host.register host code)
  | .commit => let (answer, after) := Host.commit host; (answer, m, after)
  | .clear => ((), m, Host.clear host)
  | .askDebug => (Host.isDebug host, m, host)
  | .takeMeter other => ((), other, host)

def run (host : E) (m : Meter) : List Access → List ((a : Access) × a.Answer) × Meter × E
  | [] => ([], m, host)
  | a :: rest =>
    let (answer, meter, after) := a.perform host m
    let (answers, last) := run after meter rest
    (⟨a, answer⟩ :: answers, last)

end Access

structure Host.Mapping {E F : Type} [Host E] [Host F] (φ : E → F) : Prop where
  query : ∀ e m q, Host.query (φ e) m q = Host.query e m q
  update : ∀ e m u, Host.update (φ e) m u =
    ((Host.update e m u).1, (Host.update e m u).2.1, φ (Host.update e m u).2.2)
  derive : ∀ e contract amount deployment, Host.derive (φ e) contract amount deployment =
    ((Host.derive e contract amount deployment).1, φ (Host.derive e contract amount deployment).2)
  release : ∀ e, Host.release (φ e) = φ (Host.release e)
  code : ∀ e address, Host.code? (φ e) address = Host.code? e address
  codeHash : ∀ e address, Host.codeHash? (φ e) address = Host.codeHash? e address
  register : ∀ e code, Host.register (φ e) code = φ (Host.register e code)
  commit : ∀ e, Host.commit (φ e) = ((Host.commit e).1, φ (Host.commit e).2)
  clear : ∀ e, Host.clear (φ e) = φ (Host.clear e)
  isDebug : ∀ e, Host.isDebug (φ e) = Host.isDebug e

namespace Host.Mapping

variable {E F : Type} [Host E] [Host F] {φ : E → F}

theorem perform (h : Mapping φ) (e : E) (m : Meter) (a : Access) :
    a.perform (φ e) m = ((a.perform e m).1, (a.perform e m).2.1, φ (a.perform e m).2.2) := by
  cases a with
  | query q => simp only [Access.perform, h.query]
  | update u => exact h.update e m u
  | derive contract amount deployment => simp only [Access.perform, h.derive]
  | release => simp only [Access.perform, h.release]
  | codeAt address => simp only [Access.perform, h.code]
  | codeHashAt address => simp only [Access.perform, h.codeHash]
  | register code => simp only [Access.perform, h.register]
  | commit => simp only [Access.perform, h.commit]
  | clear => simp only [Access.perform, h.clear]
  | askDebug => simp only [Access.perform, h.isDebug]
  | takeMeter other => rfl

theorem run (h : Mapping φ) (e : E) (m : Meter) (accesses : List Access) :
    Access.run (φ e) m accesses =
      ((Access.run e m accesses).1, (Access.run e m accesses).2.1, φ (Access.run e m accesses).2.2) := by
  induction accesses generalizing e m with
  | nil => rfl
  | cons a rest ih => simp only [Access.run, h.perform, ih]

end Host.Mapping
end CallBoundary
