import CallBoundary.Bytes
/-! Values of JSON text and how they are read. Numbers are kept as written, since a reader of settings has to tell `1`
from `1.0`. A string may hold half a surrogate pair by way of escapes and then stands for no text. A numeral is the
longest run of characters that numerals are made of, and has to be one as a whole: no numeral can stand right behind
another. The reader takes one token at a time and keeps what is still open, the innermost first, with what may come
next. Text is one value and nothing behind it. -/
namespace CallBoundary

inductive Json where
  | null
  | bool (value : Bool)
  | number (numeral : List Char)
  | string (text : Option String)
  | array (items : List Json)
  | object (members : List (Option String × Json))
  deriving Repr

namespace Json

def allDigits (cs : List Char) : Bool := !cs.isEmpty && cs.all Char.isDigit

def isExponent : List Char → Bool
  | [] => true
  | mark :: rest =>
    (mark = 'e' || mark = 'E') &&
      match rest with
      | '+' :: digits => allDigits digits
      | '-' :: digits => allDigits digits
      | digits => allDigits digits

def isFraction : List Char → Bool
  | '.' :: rest => allDigits (rest.takeWhile Char.isDigit) && isExponent (rest.dropWhile Char.isDigit)
  | rest => isExponent rest

def isWhole : List Char → Bool
  | '0' :: rest => rest.isEmpty
  | digits => allDigits digits

def isUnsigned (cs : List Char) : Bool :=
  isWhole (cs.takeWhile Char.isDigit) && isFraction (cs.dropWhile Char.isDigit)

def isNumeral : List Char → Bool
  | '-' :: rest => isUnsigned rest
  | cs => isUnsigned cs

def digitsValue (cs : List Char) : Nat := cs.foldl (fun n c => 10 * n + (c.toNat - 48)) 0

def natural? (numeral : List Char) : Option Nat :=
  if allDigits numeral then some (digitsValue numeral) else none

inductive Token where
  | openArray
  | closeArray
  | openObject
  | closeObject
  | comma
  | colon
  | null
  | bool (value : Bool)
  | number (numeral : List Char)
  | string (text : Option String)
  deriving DecidableEq, Repr

inductive Piece where
  | char (c : Char)
  | half (unit : Nat)
  deriving DecidableEq, Repr

def hexValue? (c : Char) : Option Nat :=
  if '0' ≤ c ∧ c ≤ '9' then some (c.toNat - 48)
  else if 'a' ≤ c ∧ c ≤ 'f' then some (c.toNat - 87)
  else if 'A' ≤ c ∧ c ≤ 'F' then some (c.toNat - 55)
  else none

def unit? (a b c d : Char) : Option Nat := do
  some (4096 * (← hexValue? a) + 256 * (← hexValue? b) + 16 * (← hexValue? c) + (← hexValue? d))

def pieceOfUnit (unit : Nat) : Piece :=
  if 0xd800 ≤ unit ∧ unit < 0xe000 then .half unit else .char (Char.ofNat unit)

def escaped? : Char → Option Char
  | '"' => some '"'
  | '\\' => some '\\'
  | '/' => some '/'
  | 'b' => some '\x08'
  | 'f' => some '\x0c'
  | 'n' => some '\n'
  | 'r' => some '\r'
  | 't' => some '\t'
  | _ => none

def readPieces : List Char → Option (List Piece × List Char)
  | [] => none
  | '"' :: rest => some ([], rest)
  | '\\' :: 'u' :: a :: b :: c :: d :: rest => do
    let unit ← unit? a b c d
    let (pieces, after) ← readPieces rest
    some (pieceOfUnit unit :: pieces, after)
  | '\\' :: mark :: rest => do
    let c ← escaped? mark
    let (pieces, after) ← readPieces rest
    some (.char c :: pieces, after)
  | c :: rest =>
    if c.toNat < 32 ∨ c = '\\' then none
    else do
      let (pieces, after) ← readPieces rest
      some (.char c :: pieces, after)

def joinPieces : List Piece → Option (List Char)
  | [] => some []
  | .char c :: rest => (joinPieces rest).map (c :: ·)
  | .half high :: .half low :: rest =>
    if high < 0xdc00 ∧ 0xdc00 ≤ low then
      (joinPieces rest).map (Char.ofNat (0x10000 + 1024 * (high - 0xd800) + (low - 0xdc00)) :: ·)
    else none
  | .half _ :: _ => none

def textOfPieces (pieces : List Piece) : Option String := (joinPieces pieces).map String.ofList

def isBlank (c : Char) : Bool := c = ' ' || c = '\n' || c = '\t' || c = '\r'

def isNumeralChar (c : Char) : Bool := c.isDigit || c = '-' || c = '+' || c = '.' || c = 'e' || c = 'E'

theorem readPiecesShorter {cs pieces rest} (h : readPieces cs = some (pieces, rest)) : rest.length < cs.length := by
  fun_induction readPieces cs generalizing pieces rest with
  | case1 => simp at h
  | case2 tail =>
    simp only [Option.some.injEq, Prod.mk.injEq] at h
    simp [h.2]
  | case3 a b c d tail ih =>
    simp only [Option.bind_eq_bind, Option.bind_eq_some_iff, Option.some.injEq, Prod.mk.injEq] at h
    obtain ⟨_, _, ⟨inner, after⟩, read, _, same⟩ := h
    have := ih read
    simp only [← same, List.length_cons]
    omega
  | case4 mark tail _ ih =>
    simp only [Option.bind_eq_bind, Option.bind_eq_some_iff, Option.some.injEq, Prod.mk.injEq] at h
    obtain ⟨_, _, ⟨inner, after⟩, read, _, same⟩ := h
    have := ih read
    simp only [← same, List.length_cons]
    omega
  | case5 => simp at h
  | case6 c tail _ _ _ _ ih =>
    simp only [Option.bind_eq_bind, Option.bind_eq_some_iff, Option.some.injEq, Prod.mk.injEq] at h
    obtain ⟨⟨inner, after⟩, read, _, same⟩ := h
    have := ih read
    simp only [← same, List.length_cons]
    omega

def readToken : List Char → Option (Token × List Char)
  | '[' :: rest => some (.openArray, rest)
  | ']' :: rest => some (.closeArray, rest)
  | '\x7b' :: rest => some (.openObject, rest)
  | '\x7d' :: rest => some (.closeObject, rest)
  | ',' :: rest => some (.comma, rest)
  | ':' :: rest => some (.colon, rest)
  | 'n' :: 'u' :: 'l' :: 'l' :: rest => some (.null, rest)
  | 't' :: 'r' :: 'u' :: 'e' :: rest => some (.bool true, rest)
  | 'f' :: 'a' :: 'l' :: 's' :: 'e' :: rest => some (.bool false, rest)
  | '"' :: rest => (readPieces rest).map fun (pieces, after) => (.string (textOfPieces pieces), after)
  | cs =>
    let numeral := cs.takeWhile isNumeralChar
    if isNumeral numeral then some (.number numeral, cs.dropWhile isNumeralChar) else none

theorem readTokenShorter {cs t rest} (h : readToken cs = some (t, rest)) : rest.length < cs.length := by
  unfold readToken at h
  split at h
  case h_10 =>
    simp only [Option.map_eq_some_iff, Prod.mk.injEq] at h
    obtain ⟨⟨pieces, after⟩, read, _, same⟩ := h
    have := readPiecesShorter read
    simp only [← same, List.length_cons]
    omega
  case h_11 =>
    dsimp only at h
    split at h
    · rename_i valid
      simp only [Option.some.injEq, Prod.mk.injEq] at h
      have filled : cs.takeWhile isNumeralChar ≠ [] := by
        intro bare
        rw [bare] at valid
        exact absurd valid (by decide)
      have both := congrArg List.length (List.takeWhile_append_dropWhile (p := isNumeralChar) (l := cs))
      have := List.length_pos_iff.mpr filled
      rw [List.length_append] at both
      rw [← h.2]
      omega
    · simp at h
  all_goals
    simp only [Option.some.injEq, Prod.mk.injEq] at h
    simp only [← h.2, List.length_cons]
    omega

def tokens (cs : List Char) : Option (List Token) :=
  match cs with
  | [] => some []
  | c :: rest =>
    if isBlank c then tokens rest
    else
      match _read : readToken (c :: rest) with
      | none => none
      | some (t, after) => (tokens after).map (t :: ·)
termination_by cs.length
decreasing_by
  · simp
  · exact readTokenShorter _read

inductive Opened where
  | array (items : List Json)
  | object (members : List (Option String × Json))
  | field (members : List (Option String × Json)) (name : Option String)

inductive Expected where
  | value
  | itemOrClose
  | name
  | nameOrClose
  | colon (name : Option String)
  | after (value : Json)

structure Reader where
  opened : List Opened := []
  expected : Expected := .value

namespace Reader

def scalar? : Token → Option Json
  | .null => some .null
  | .bool value => some (.bool value)
  | .number numeral => some (.number numeral)
  | .string text => some (.string text)
  | _ => none

def readValue (r : Reader) (t : Token) : Option Reader :=
  match t with
  | .openArray => some ⟨.array [] :: r.opened, .itemOrClose⟩
  | .openObject => some ⟨.object [] :: r.opened, .nameOrClose⟩
  | scalar => (scalar? scalar).map fun value => ⟨r.opened, .after value⟩

def readName (r : Reader) : Token → Option Reader
  | .string name => some { r with expected := .colon name }
  | _ => none

def closeEmpty (r : Reader) (value : Json) : Option Reader := some ⟨r.opened.tail, .after value⟩

def readAfter (r : Reader) (value : Json) (t : Token) : Option Reader :=
  match t, r.opened with
  | .comma, .array items :: outer => some ⟨.array (value :: items) :: outer, .value⟩
  | .closeArray, .array items :: outer => some ⟨outer, .after (.array (value :: items).reverse)⟩
  | .comma, .field members name :: outer => some ⟨.object ((name, value) :: members) :: outer, .name⟩
  | .closeObject, .field members name :: outer => some ⟨outer, .after (.object ((name, value) :: members).reverse)⟩
  | _, _ => none

def readColon (r : Reader) (name : Option String) (t : Token) : Option Reader :=
  match t, r.opened with
  | .colon, .object members :: outer => some ⟨.field members name :: outer, .value⟩
  | _, _ => none

def step (r : Reader) (t : Token) : Option Reader :=
  match r.expected with
  | .value => r.readValue t
  | .itemOrClose => if t = .closeArray then r.closeEmpty (.array []) else r.readValue t
  | .name => r.readName t
  | .nameOrClose => if t = .closeObject then r.closeEmpty (.object []) else r.readName t
  | .colon name => r.readColon name t
  | .after value => r.readAfter value t

def finish (r : Reader) : Option Json :=
  match r.opened, r.expected with
  | [], .after value => some value
  | _, _ => none

end Reader

def ofTokens? (ts : List Token) : Option Json := do
  let last ← ts.foldlM Reader.step {}
  last.finish

def ofText? (text : String) : Option Json := do
  let ts ← tokens text.toList
  ofTokens? ts

end Json

end CallBoundary
