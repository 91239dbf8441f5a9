import CallBoundary.Proofs.JsonRecords
/-! Settings as text. An object may carry any part of the settings, and under the name of the tariff any part of the tariff,
each in any order and with whatever else under other names: the settings read from it are those given, and the standard ones
where nothing is given. The text that settings are written as is such an object and carries all of them. -/
namespace CallBoundary

open Json Member

namespace Tariff

def fields (t : Tariff) : List (String × Json) :=
  [("storageWritePerByte", word t.writeByte), ("storageReadPerByte", word t.readByte), ("storageRemove", word t.removal),
   ("contextRead", word t.contextRead), ("balanceRead", word t.balanceRead), ("transfer", word t.transfer),
   ("identityRead", word t.identityRead), ("codeRead", word t.codeRead), ("codeReadPerByte", word t.codeByte),
   ("addressDerivation", word t.derivation), ("event", word t.event), ("eventPerByte", word t.eventByte),
   ("keccak", word t.hash), ("keccakPerWord", word t.hashWord)]

def only (t : Tariff) (names : Finset String) : Tariff where
  writeByte := if "storageWritePerByte" ∈ names then t.writeByte else standard.writeByte
  readByte := if "storageReadPerByte" ∈ names then t.readByte else standard.readByte
  removal := if "storageRemove" ∈ names then t.removal else standard.removal
  contextRead := if "contextRead" ∈ names then t.contextRead else standard.contextRead
  balanceRead := if "balanceRead" ∈ names then t.balanceRead else standard.balanceRead
  transfer := if "transfer" ∈ names then t.transfer else standard.transfer
  identityRead := if "identityRead" ∈ names then t.identityRead else standard.identityRead
  codeRead := if "codeRead" ∈ names then t.codeRead else standard.codeRead
  codeByte := if "codeReadPerByte" ∈ names then t.codeByte else standard.codeByte
  derivation := if "addressDerivation" ∈ names then t.derivation else standard.derivation
  event := if "event" ∈ names then t.event else standard.event
  eventByte := if "eventPerByte" ∈ names then t.eventByte else standard.eventByte
  hash := if "keccak" ∈ names then t.hash else standard.hash
  hashWord := if "keccakPerWord" ∈ names then t.hashWord else standard.hashWord

theorem table (t : Tariff) : Table members t.fields t.only where
  pairs := by
    repeat refine .cons (ofWordFills fun names => by simp [only]) ?_
    exact .nil
  distinct := by
    simp only [fields, List.map_cons, List.map_nil]
    decide
  depends names others same := by
    simp only [fields, List.map_cons, List.map_nil, List.forall_mem_cons] at same
    simp only [only, same]

theorem fieldsWritten (t : Tariff) : List.Forall₂ (Writes t) members t.fields := by
  repeat refine .cons (ofWordWrites (by decide)) ?_
  exact .nil

theorem onlyNone (t : Tariff) : t.only ∅ = standard := by
  simp only [only, Finset.notMem_empty, if_false]

theorem onlyAll (t : Tariff) : t.only (t.fields.map Prod.fst).toFinset = t := by
  simp [only, fields]

theorem readOnly {t : Tariff} {rates : Finset String} {entries : List (String × Json)}
    (carried : Carries t.fields rates entries) : Tariff.read (record entries) = some (t.only rates) := by
  have read := readCarried t.table carried
  rwa [onlyNone] at read

end Tariff

namespace Settings

def fields (s : Settings) (tariff : List (String × Json)) : List (String × Json) :=
  [("isDebug", .bool s.debug), ("maxCallDepth", word s.maxCallDepth), ("gas", record tariff)]

def only (s : Settings) (names rates : Finset String) : Settings where
  debug := if "isDebug" ∈ names then s.debug else standard.debug
  maxCallDepth := if "maxCallDepth" ∈ names then s.maxCallDepth else standard.maxCallDepth
  tariff := if "gas" ∈ names then s.tariff.only rates else standard.tariff

theorem table (s : Settings) {rates : Finset String} {tariff : List (String × Json)}
    (carried : Carries s.tariff.fields rates tariff) : Table members (s.fields tariff) fun names => s.only names rates where
  pairs := by
    refine .cons ⟨rfl, fun names => ?_⟩ (.cons (ofWordFills fun names => ?_) (.cons ⟨rfl, fun names => ?_⟩ .nil))
    · simp [ofBool, readBool, only]
    · simp [only]
    · simp [only, Tariff.readOnly carried]
  distinct := by
    simp only [fields, List.map_cons, List.map_nil]
    decide
  depends names others same := by
    simp only [fields, List.map_cons, List.map_nil, List.forall_mem_cons] at same
    simp only [only, same]

theorem fieldsWritten (s : Settings) : List.Forall₂ (Writes s) members (s.fields s.tariff.fields) := by
  have debug : Plain "isDebug".toList := by decide
  have depth : Plain "maxCallDepth".toList := by decide
  have tariff : Plain "gas".toList := by decide
  exact .cons ⟨rfl, debug, boolLaid s.debug⟩
    (.cons (ofWordWrites depth) (.cons ⟨rfl, tariff, writtenSpells s.tariff.fieldsWritten⟩ .nil))

theorem onlyNone (s : Settings) (rates : Finset String) : s.only ∅ rates = standard := by
  simp only [only, Finset.notMem_empty, if_false]

theorem onlyAll (s : Settings) (tariff : List (String × Json)) :
    s.only ((s.fields tariff).map Prod.fst).toFinset (s.tariff.fields.map Prod.fst).toFinset = s := by
  simp [only, fields, s.tariff.onlyAll]

/-- Read from an object that carries some of the settings, and under the name of the tariff one that carries some of the
rates, however it is laid out as text, settings are what was carried and the standard ones besides. What settings are
written as reads as these settings. -/
theorem partialTextsFillIn (s : Settings) :
    (∀ (names rates : Finset String) (tariff entries : List (String × Json)) (text : String),
        Carries s.tariff.fields rates tariff → Carries (s.fields tariff) names entries →
        Spells (record entries) text → ofText? text = some (s.only names rates)) ∧
      ofText? s.toText = some s := by
  have reads : ∀ (names rates : Finset String) (tariff entries : List (String × Json)) (text : String),
      Carries s.tariff.fields rates tariff → Carries (s.fields tariff) names entries →
      Spells (record entries) text → ofText? text = some (s.only names rates) := by
    intro names rates tariff entries text inner outer spells
    have read := readCarried (s.table inner) outer
    rw [onlyNone] at read
    rw [ofText?, spelledReads spells]
    exact read
  refine ⟨reads, ?_⟩
  have whole := reads _ _ _ _ s.toText (carriesAll s.tariff.fields) (carriesAll _) (writtenSpells s.fieldsWritten)
  rwa [onlyAll] at whole

def sparse : String := "\x7b \"isDebug\": true,\n\t\"note\": [], \"gas\":\x7b\"transfer\":7\x7d \x7d"

theorem sparseFillsIn :
    let s : Settings := ⟨true, 0, { Tariff.free with transfer := 7 }⟩
    let tariff := [("transfer", word 7)]
    let entries := [("isDebug", .bool true), ("note", .array []), ("gas", record tariff)]
    Carries s.tariff.fields {"transfer"} tariff ∧ Carries (s.fields tariff) {"isDebug", "gas"} entries ∧
      Spells (record entries) sparse ∧ ofText? sparse = some ⟨true, 64, { Tariff.standard with transfer := 7 }⟩ := by
  intro s tariff entries
  have inner : Carries s.tariff.fields {"transfer"} tariff := ⟨[], .refl _, fun _ member => absurd member List.not_mem_nil⟩
  have outer : Carries (s.fields tariff) {"isDebug", "gas"} entries := by
    refine ⟨[("note", .array [])], .cons _ (.swap _ _ _), ?_⟩
    intro stranger member
    cases List.mem_singleton.mp member
    simp [fields]
  have spells : Spells (record entries) sparse := by
    have seven : Numeral ['7'] := toDigitsNumeral 7
    have last := Laid.token .closeObject (.blank (b := ' ') (by decide) (.token .closeObject .nil))
    have rate := nameLaid (by decide : Plain "transfer".toList) (.token .colon (.token (.number seven) last))
    have tariff := nameLaid (by decide : Plain "gas".toList) (.token .colon (.token .openObject rate))
    have note := nameLaid (by decide : Plain "note".toList)
      (.token .colon (.blank (b := ' ') (by decide) (.token .openArray (.token .closeArray (.token .comma
        (.blank (b := ' ') (by decide) tariff))))))
    have debug := nameLaid (by decide : Plain "isDebug".toList)
      (.token .colon (.blank (b := ' ') (by decide) (.token .true (.token .comma
        (.blank (b := '\n') (by decide) (.blank (b := '\t') (by decide) note))))))
    exact Laid.token .openObject (.blank (b := ' ') (by decide) debug)
  exact ⟨inner, outer, spells, (partialTextsFillIn s).1 _ _ _ _ _ inner outer spells⟩

end Settings
end CallBoundary
