import CallBoundary.Proofs.JsonTokens
/-! Text that spells a value reads as this value: all of it, in any of its layouts. The tokens of a value are taken one at a
time by a reader that knows what is open around it, so reading a value inside something else leaves that open and
comes out behind the value. -/
namespace CallBoundary.Json

/-! The tokens of a value, and those behind an item of an array and behind a member of an object. -/

mutual

def written : Json → List Token
  | .null => [.null]
  | .bool value => [.bool value]
  | .number numeral => [.number numeral]
  | .string text => [.string text]
  | .array [] => [.openArray, .closeArray]
  | .array (item :: items) => .openArray :: (written item ++ writtenItems items)
  | .object [] => [.openObject, .closeObject]
  | .object ((name, value) :: members) =>
    .openObject :: .string name :: .colon :: (written value ++ writtenMembers members)

def writtenItems : List Json → List Token
  | [] => [.closeArray]
  | item :: items => .comma :: (written item ++ writtenItems items)

def writtenMembers : List (Option String × Json) → List Token
  | [] => [.closeObject]
  | (name, value) :: members => .comma :: .string name :: .colon :: (written value ++ writtenMembers members)

end

def Spells (value : Json) (text : String) : Prop := Laid (written value) text.toList

theorem writtenStarts (value : Json) : ∃ t ts, written value = t :: ts ∧ t ≠ .closeArray := by
  cases value with
  | array items => cases items <;> exact ⟨_, _, rfl, Token.noConfusion⟩
  | object members => cases members <;> exact ⟨_, _, rfl, Token.noConfusion⟩
  | _ => exact ⟨_, _, rfl, Token.noConfusion⟩

theorem apartCons {t : Token} {ts : List Token} (other : isNumber t = false) (apart : Apart ts) : Apart (t :: ts) :=
  List.isChain_cons.mpr ⟨fun _ _ => .inl other, apart⟩

theorem apartScalar {t : Token} {rest : List Token} (other : ∀ next ∈ rest.head?, isNumber next = false)
    (apart : Apart rest) : Apart (t :: rest) :=
  List.isChain_cons.mpr ⟨fun next head => .inr (other next head), apart⟩

theorem itemsStart (items : List Json) (rest : List Token) :
    ∀ t ∈ (writtenItems items ++ rest).head?, isNumber t = false := by
  cases items <;> rintro t ⟨⟩ <;> rfl

theorem membersStart (members : List (Option String × Json)) (rest : List Token) :
    ∀ t ∈ (writtenMembers members ++ rest).head?, isNumber t = false := by
  cases members <;> rintro t ⟨⟩ <;> rfl

/-! A numeral is a whole value, and between two values there is a comma or a bracket. -/

mutual

theorem writtenApart : ∀ (value : Json) (rest : List Token), (∀ t ∈ rest.head?, isNumber t = false) → Apart rest →
    Apart (written value ++ rest)
  | .null, _, other, apart => apartScalar other apart
  | .bool _, _, other, apart => apartScalar other apart
  | .number _, _, other, apart => apartScalar other apart
  | .string _, _, other, apart => apartScalar other apart
  | .array [], _, _, apart => apartCons rfl (apartCons rfl apart)
  | .array (item :: items), rest, _, apart => by
    have behind := itemsApart items rest apart
    have first := writtenApart item _ (itemsStart items rest) behind
    rw [← List.append_assoc] at first
    exact apartCons rfl first
  | .object [], _, _, apart => apartCons rfl (apartCons rfl apart)
  | .object ((_, value) :: members), rest, _, apart => by
    have behind := membersApart members rest apart
    have first := writtenApart value _ (membersStart members rest) behind
    rw [← List.append_assoc] at first
    exact apartCons rfl (apartCons rfl (apartCons rfl first))

theorem itemsApart : ∀ (items : List Json) (rest : List Token), Apart rest → Apart (writtenItems items ++ rest)
  | [], _, apart => apartCons rfl apart
  | item :: items, rest, apart => by
    have behind := itemsApart items rest apart
    have first := writtenApart item _ (itemsStart items rest) behind
    rw [← List.append_assoc] at first
    exact apartCons rfl first

theorem membersApart : ∀ (members : List (Option String × Json)) (rest : List Token), Apart rest →
    Apart (writtenMembers members ++ rest)
  | [], _, apart => apartCons rfl apart
  | (_, value) :: members, rest, apart => by
    have behind := membersApart members rest apart
    have first := writtenApart value _ (membersStart members rest) behind
    rw [← List.append_assoc] at first
    exact apartCons rfl (apartCons rfl (apartCons rfl first))

end

theorem readOne {r next : Reader} {t : Token} (step : r.step t = some next) (ts : List Token) :
    (t :: ts).foldlM Reader.step r = ts.foldlM Reader.step next := by
  rw [List.foldlM_cons, step]
  rfl

theorem readThen {r next : Reader} {ts : List Token} (read : ts.foldlM Reader.step r = some next) (more : List Token) :
    (ts ++ more).foldlM Reader.step r = more.foldlM Reader.step next := by
  rw [List.foldlM_append, read]
  rfl

theorem firstItemRead (item : Json) (opened : List Opened) :
    (written item).foldlM Reader.step ⟨opened, .itemOrClose⟩ = (written item).foldlM Reader.step ⟨opened, .value⟩ := by
  obtain ⟨t, ts, starts, other⟩ := writtenStarts item
  have same : Reader.step ⟨opened, .itemOrClose⟩ t = Reader.step ⟨opened, .value⟩ t := if_neg other
  rw [starts, List.foldlM_cons, List.foldlM_cons, same]

mutual

theorem writtenRead : ∀ (value : Json) (opened : List Opened),
    (written value).foldlM Reader.step ⟨opened, .value⟩ = some ⟨opened, .after value⟩
  | .null, _ => rfl
  | .bool _, _ => rfl
  | .number _, _ => rfl
  | .string _, _ => rfl
  | .array [], _ => rfl
  | .array (item :: items), opened => by
    have first := (firstItemRead item (.array [] :: opened)).trans (writtenRead item (.array [] :: opened))
    rw [written, readOne rfl, readThen first]
    exact itemsRead items [] item opened
  | .object [], _ => rfl
  | .object ((name, value) :: members), opened => by
    have first := writtenRead value (.field [] name :: opened)
    rw [written, readOne rfl, readOne rfl, readOne rfl, readThen first]
    exact membersRead members [] name value opened

-- The items in `before` have been read, the newest first, and now `item`.
theorem itemsRead : ∀ (items before : List Json) (item : Json) (outer : List Opened),
    (writtenItems items).foldlM Reader.step ⟨.array before :: outer, .after item⟩ =
      some ⟨outer, .after (.array (before.reverse ++ item :: items))⟩
  | [], before, item, outer => by
    rw [writtenItems, readOne rfl, List.reverse_cons]
    rfl
  | next :: items, before, item, outer => by
    have first := writtenRead next (.array (item :: before) :: outer)
    rw [writtenItems, readOne rfl, readThen first, itemsRead items (item :: before) next outer, List.reverse_cons,
      List.append_assoc]
    rfl

theorem membersRead : ∀ (members before : List (Option String × Json)) (name : Option String) (value : Json)
    (outer : List Opened),
    (writtenMembers members).foldlM Reader.step ⟨.field before name :: outer, .after value⟩ =
      some ⟨outer, .after (.object (before.reverse ++ (name, value) :: members))⟩
  | [], before, name, value, outer => by
    rw [writtenMembers, readOne rfl, List.reverse_cons]
    rfl
  | (next, other) :: members, before, name, value, outer => by
    have first := writtenRead other (.field ((name, value) :: before) next :: outer)
    rw [writtenMembers, readOne rfl, readOne rfl, readOne rfl, readThen first,
      membersRead members ((name, value) :: before) next other outer, List.reverse_cons, List.append_assoc]
    rfl

end

theorem ofTokensWritten (value : Json) : ofTokens? (written value) = some value := by
  rw [ofTokens?, writtenRead value []]
  rfl

theorem spelledReads {value : Json} {text : String} (spells : Spells value text) : ofText? text = some value := by
  have apart := writtenApart value [] (fun t head => by cases head) List.isChain_nil
  rw [List.append_nil] at apart
  rw [ofText?, tokensLaid spells apart]
  exact ofTokensWritten value

end CallBoundary.Json
