import Mathlib.Data.List.Basic
import Mathlib.Data.List.Forall2

/-! JSON texts, written and read back.

Values are those of JSON but for numbers. The writer is the compact one of
`JSON.stringify`; the reader is that of `JSON.parse`, which accepts blanks and
escapes the writer never writes. A text is a sequence of characters, so the
escapes of half a character are not read. Whatever was written is read back as
it was.
-/

set_option autoImplicit false

namespace Foundation

inductive Json where
  | null
  | bool (value : Bool)
  | str (text : String)
  | arr (items : List Json)
  | obj (fields : List (String × Json))

namespace Json

/-- The field of an object; where a name occurs again, the last one counts. Nothing else has fields. -/
def get (name : String) : Json → Option Json
  | .obj fields => fields.reverse.lookup name
  | _ => none

def text? : Json → Option String
  | .str text => some text
  | _ => none

def bool? : Json → Option Bool
  | .bool value => some value
  | _ => none

/-! ## Writing -/

def letters : List (Char × Char) :=
  [('\"', '\"'), ('\\', '\\'), ('\x08', 'b'), ('\x0c', 'f'), ('\n', 'n'), ('\r', 'r'), ('\t', 't')]

def unitDigits (char : Char) : List Char :=
  ['0', '0', Nat.digitChar (char.toNat / 16), Nat.digitChar (char.toNat % 16)]

def escape (char : Char) : List Char :=
  match letters.lookup char with
  | some letter => ['\\', letter]
  | none => if char.toNat < 32 then '\\' :: 'u' :: unitDigits char else [char]

def quote (text : List Char) : List Char := '\"' :: text.flatMap escape ++ ['\"']

def separated (close : Char) : List (List Char) → List Char
  | [] => [close]
  | piece :: pieces => ',' :: piece ++ separated close pieces

def enclosed (close : Char) : List (List Char) → List Char
  | [] => [close]
  | piece :: pieces => piece ++ separated close pieces

mutual

def write : Json → List Char
  | .null => ['n', 'u', 'l', 'l']
  | .bool true => ['t', 'r', 'u', 'e']
  | .bool false => ['f', 'a', 'l', 's', 'e']
  | .str text => quote text.toList
  | .arr items => '[' :: enclosed ']' (writeItems items)
  | .obj fields => '\x7b' :: enclosed '\x7d' (writeFields fields)

def writeItems : List Json → List (List Char)
  | [] => []
  | item :: items => write item :: writeItems items

def writeFields : List (String × Json) → List (List Char)
  | [] => []
  | (name, value) :: fields => (quote name.toList ++ ':' :: write value) :: writeFields fields

end

def stringify (value : Json) : String := String.ofList value.write

/-! ## Reading -/

def isBlank (char : Char) : Bool := char = ' ' || char = '\n' || char = '\r' || char = '\t'

def skipBlanks (chars : List Char) : List Char := chars.dropWhile isBlank

def hexValue (char : Char) : Option ℕ :=
  if '0' ≤ char ∧ char ≤ '9' then some (char.toNat - 48)
  else if 'a' ≤ char ∧ char ≤ 'f' then some (char.toNat - 87)
  else if 'A' ≤ char ∧ char ≤ 'F' then some (char.toNat - 55)
  else none

def readUnit (digits : List Char) : Option Char := do
  let values ← digits.mapM hexValue
  let number := values.foldl (fun number value => 16 * number + value) 0
  if number.isValidChar then some (Char.ofNat number) else none

/-- The character behind a backslash; the writer never escapes a slash. -/
def unescape (letter : Char) : Option Char :=
  if letter = '/' then some '/' else (letters.find? fun pair => pair.2 = letter).map Prod.fst

def behind {Piece : Type} (piece : Piece) (read : List Piece × List Char) : List Piece × List Char :=
  (piece :: read.1, read.2)

def readText : List Char → Option (List Char × List Char)
  | [] => none
  | '\"' :: rest => some ([], rest)
  | '\\' :: 'u' :: first :: second :: third :: fourth :: rest => do
      let char ← readUnit [first, second, third, fourth]
      (readText rest).map (behind char)
  | '\\' :: letter :: rest => do
      let char ← unescape letter
      (readText rest).map (behind char)
  | char :: rest => if char.toNat < 32 then none else (readText rest).map (behind char)

section Many
variable {Piece : Type} (close : Char) (read : List Char → Option (Piece × List Char))

def readSeparated : ℕ → List Char → Option (List Piece × List Char)
  | 0, _ => none
  | fuel + 1, chars =>
    match skipBlanks chars with
    | [] => none
    | char :: rest =>
      if char = close then some ([], rest)
      else if char = ',' then do
        let (piece, rest) ← read rest
        (readSeparated fuel rest).map (behind piece)
      else none

def readEnclosed (fuel : ℕ) (chars : List Char) : Option (List Piece × List Char) :=
  match skipBlanks chars with
  | [] => none
  | char :: rest =>
    if char = close then some ([], rest)
    else do
      let (piece, rest) ← read (char :: rest)
      (readSeparated close read fuel rest).map (behind piece)

end Many

def readField (read : List Char → Option (Json × List Char)) (chars : List Char) :
    Option ((String × Json) × List Char) :=
  match skipBlanks chars with
  | '\"' :: rest => do
      let (name, rest) ← readText rest
      match skipBlanks rest with
      | ':' :: rest => do
          let (value, rest) ← read rest
          return ((String.ofList name, value), rest)
      | _ => none
  | _ => none

def readValue : ℕ → List Char → Option (Json × List Char)
  | 0, _ => none
  | fuel + 1, chars =>
    match skipBlanks chars with
    | 'n' :: 'u' :: 'l' :: 'l' :: rest => some (.null, rest)
    | 't' :: 'r' :: 'u' :: 'e' :: rest => some (.bool true, rest)
    | 'f' :: 'a' :: 'l' :: 's' :: 'e' :: rest => some (.bool false, rest)
    | '\"' :: rest => do
        let (text, rest) ← readText rest
        return (.str (String.ofList text), rest)
    | '[' :: rest => do
        let (items, rest) ← readEnclosed ']' (readValue fuel) fuel rest
        return (.arr items, rest)
    | '\x7b' :: rest => do
        let (fields, rest) ← readEnclosed '\x7d' (readField (readValue fuel)) fuel rest
        return (.obj fields, rest)
    | _ => none

/-- `JSON.parse(text)`; absent where it throws. -/
def parse (text : String) : Option Json := do
  let (value, rest) ← readValue text.toList.length text.toList
  if skipBlanks rest = [] then some value else none

/-! ## Reading what was written -/

section Text

theorem of_letters {char letter : Char} (named : letters.lookup char = some letter) :
    letter ≠ 'u' ∧ unescape letter = some char := by
  have all : ∀ pair ∈ letters, pair.2 ≠ 'u' ∧ unescape pair.2 = some pair.1 := by decide
  obtain ⟨before, after, split, _⟩ := List.lookup_eq_some_iff.mp named
  exact all (char, letter) (by rw [split]; simp)

theorem readUnit_unitDigits {char : Char} (control : char.toNat < 32) : readUnit (unitDigits char) = some char := by
  have all : ∀ number < 32, readUnit (unitDigits (Char.ofNat number)) = some (Char.ofNat number) := by decide
  have here := all char.toNat control
  rwa [Char.ofNat_toNat] at here

/-- Whatever way a character is written, it is read back. -/
theorem readText_escape (char : Char) (rest : List Char) :
    readText (escape char ++ rest) = (readText rest).map (behind char) := by
  unfold escape
  cases named : letters.lookup char with
  | some letter =>
    obtain ⟨notUnit, read⟩ := of_letters named
    simp [readText, notUnit, read]
  | none =>
    by_cases control : char.toNat < 32
    · have read := readUnit_unitDigits control
      unfold unitDigits at read ⊢
      simp [control, readText, read]
    · have notQuote : char ≠ '\"' := by
        rintro rfl
        exact absurd named (by decide)
      have notBackslash : char ≠ '\\' := by
        rintro rfl
        exact absurd named (by decide)
      simp [control, readText, notBackslash]

theorem readText_quoted (text rest : List Char) :
    readText (text.flatMap escape ++ '\"' :: rest) = some (text, rest) := by
  induction text with
  | nil => simp [readText]
  | cons char text ih =>
    rw [List.flatMap_cons, List.append_assoc, readText_escape, ih]
    rfl

end Text

section Many
variable {Piece : Type} {close : Char} {read : List Char → Option (Piece × List Char)}

/-- The text is read as the piece, whatever follows it. -/
def Reads (read : List Char → Option (Piece × List Char)) (text : List Char) (piece : Piece) : Prop :=
  ∀ rest, read (text ++ rest) = some (piece, rest)

theorem skipBlanks_of_not_blank {char : Char} (solid : isBlank char = false) (rest : List Char) :
    skipBlanks (char :: rest) = char :: rest := by
  simp [skipBlanks, solid]

theorem readSeparated_separated (solid : isBlank close = false) (notComma : close ≠ ',') {texts : List (List Char)}
    {pieces : List Piece} (reads : List.Forall₂ (Reads read) texts pieces) {fuel : ℕ} (enough : texts.length < fuel)
    (rest : List Char) : readSeparated close read fuel (separated close texts ++ rest) = some (pieces, rest) := by
  induction reads generalizing fuel with
  | nil =>
    obtain ⟨fuel, rfl⟩ := Nat.exists_eq_add_one.mpr enough
    simp [separated, readSeparated, skipBlanks_of_not_blank solid]
  | @cons text piece texts pieces first _ ih =>
    obtain ⟨fuel, rfl⟩ : ∃ less, fuel = less + 1 := ⟨fuel - 1, by omega⟩
    have comma : isBlank ',' = false := by decide
    have later : readSeparated close read fuel (separated close texts ++ rest) = some (pieces, rest) :=
      ih (by simpa using enough)
    simp [separated, readSeparated, skipBlanks_of_not_blank comma, notComma.symm, first _, later, behind]

/-- The text begins with a character that is neither blank nor the closing bracket. -/
def Opens (close : Char) (text : List Char) : Prop :=
  ∃ char rest, text = char :: rest ∧ isBlank char = false ∧ char ≠ close

theorem readEnclosed_enclosed (solid : isBlank close = false) (notComma : close ≠ ',') {texts : List (List Char)}
    {pieces : List Piece} (reads : List.Forall₂ (Reads read) texts pieces) (opens : ∀ text ∈ texts, Opens close text)
    {fuel : ℕ} (enough : texts.length ≤ fuel) (rest : List Char) :
    readEnclosed close read fuel (enclosed close texts ++ rest) = some (pieces, rest) := by
  cases reads with
  | nil => simp [enclosed, readEnclosed, skipBlanks_of_not_blank solid]
  | @cons text piece texts pieces first others =>
    obtain ⟨char, more, rfl, notBlank, notClose⟩ := opens text List.mem_cons_self
    have later := readSeparated_separated solid notComma others (Nat.lt_of_succ_le enough) rest
    have here := first (separated close texts ++ rest)
    rw [List.cons_append] at here
    simp [enclosed, readEnclosed, skipBlanks_of_not_blank notBlank, notClose, here, later, behind]

end Many

/-! ## Values -/

theorem opens_quote (close : Char) (notQuote : close ≠ '\"') (text : List Char) (rest : List Char) :
    Opens close (quote text ++ rest) :=
  ⟨'\"', text.flatMap escape ++ ['\"'] ++ rest, by simp [quote], by decide, notQuote.symm⟩

theorem opens_write (value : Json) : Opens ']' value.write := by
  cases value with
  | null => exact ⟨'n', _, rfl, by decide, by decide⟩
  | bool value =>
    cases value with
    | false => exact ⟨'f', _, rfl, by decide, by decide⟩
    | true => exact ⟨'t', _, rfl, by decide, by decide⟩
  | str text =>
    have opens := opens_quote ']' (by decide) text.toList []
    rwa [List.append_nil] at opens
  | arr items => exact ⟨'[', _, rfl, by decide, by decide⟩
  | obj fields => exact ⟨'\x7b', _, rfl, by decide, by decide⟩

theorem length_write_pos (value : Json) : 0 < value.write.length := by
  obtain ⟨char, rest, written, _⟩ := opens_write value
  rw [written]
  exact Nat.succ_pos _

theorem length_separated (close : Char) (texts : List (List Char)) :
    texts.length < (separated close texts).length ∧ ∀ text ∈ texts, text.length < (separated close texts).length := by
  induction texts with
  | nil => simp [separated]
  | cons text texts ih =>
    obtain ⟨count, each⟩ := ih
    simp only [separated, List.length_cons, List.length_append, List.forall_mem_cons]
    refine ⟨by omega, by omega, ?_⟩
    intro other member
    have shorter := each other member
    omega

theorem length_enclosed (close : Char) (texts : List (List Char)) (opens : ∀ text ∈ texts, Opens close text) :
    texts.length ≤ (enclosed close texts).length ∧ ∀ text ∈ texts, text.length ≤ (enclosed close texts).length := by
  cases texts with
  | nil => simp [enclosed]
  | cons text texts =>
    obtain ⟨count, each⟩ := length_separated close texts
    obtain ⟨char, more, rfl, _⟩ := opens text List.mem_cons_self
    simp only [enclosed, List.length_cons, List.length_append, List.forall_mem_cons]
    refine ⟨by omega, by omega, ?_⟩
    intro other member
    have shorter := each other member
    omega

theorem opens_writeItems (items : List Json) : ∀ text ∈ writeItems items, Opens ']' text := by
  induction items with
  | nil => simp [writeItems]
  | cons item items ih => exact List.forall_mem_cons.mpr ⟨opens_write item, ih⟩

theorem opens_writeFields (fields : List (String × Json)) : ∀ text ∈ writeFields fields, Opens '\x7d' text := by
  induction fields with
  | nil => simp [writeFields]
  | cons field fields ih => exact List.forall_mem_cons.mpr ⟨opens_quote '\x7d' (by decide) _ _, ih⟩

theorem reads_field {read : List Char → Option (Json × List Char)} {value : Json}
    (reads : Reads read value.write value) (name : String) :
    Reads (readField read) (quote name.toList ++ ':' :: value.write) (name, value) := by
  intro rest
  have quoteSolid : isBlank '\"' = false := by decide
  have colonSolid : isBlank ':' = false := by decide
  simp [readField, quote, skipBlanks_of_not_blank quoteSolid, readText_quoted, skipBlanks_of_not_blank colonSolid,
    reads rest]

mutual

theorem reads_write : ∀ (value : Json) (fuel : ℕ), value.write.length ≤ fuel → Reads (readValue fuel) value.write value
  | value, 0, enough => absurd enough (Nat.not_le_of_lt (length_write_pos value))
  | .null, fuel + 1, _ => by
    intro rest
    simp [write, readValue, skipBlanks, isBlank]
  | .bool true, fuel + 1, _ => by
    intro rest
    simp [write, readValue, skipBlanks, isBlank]
  | .bool false, fuel + 1, _ => by
    intro rest
    simp [write, readValue, skipBlanks, isBlank]
  | .str text, fuel + 1, _ => by
    intro rest
    simp [write, quote, readValue, skipBlanks, isBlank, readText_quoted]
  | .arr items, fuel + 1, enough => by
    intro rest
    have opens := opens_writeItems items
    obtain ⟨count, each⟩ := length_enclosed ']' (writeItems items) opens
    simp only [write, List.length_cons] at enough
    have reads := reads_writeItems items fuel (fun text member => Nat.le_trans (each text member) (by omega))
    have read := readEnclosed_enclosed (by decide) (by decide) reads opens (show _ ≤ fuel by omega) rest
    simp [write, readValue, skipBlanks, isBlank, read]
  | .obj fields, fuel + 1, enough => by
    intro rest
    have opens := opens_writeFields fields
    obtain ⟨count, each⟩ := length_enclosed '\x7d' (writeFields fields) opens
    simp only [write, List.length_cons] at enough
    have reads := reads_writeFields fields fuel (fun text member => Nat.le_trans (each text member) (by omega))
    have read := readEnclosed_enclosed (by decide) (by decide) reads opens (show _ ≤ fuel by omega) rest
    simp [write, readValue, skipBlanks, isBlank, read]

theorem reads_writeItems : ∀ (items : List Json) (fuel : ℕ), (∀ text ∈ writeItems items, text.length ≤ fuel) →
    List.Forall₂ (Reads (readValue fuel)) (writeItems items) items
  | [], fuel, enough => .nil
  | item :: items, fuel, enough => by
    obtain ⟨here, others⟩ := List.forall_mem_cons.mp enough
    exact .cons (reads_write item fuel here) (reads_writeItems items fuel others)

theorem reads_writeFields : ∀ (fields : List (String × Json)) (fuel : ℕ),
    (∀ text ∈ writeFields fields, text.length ≤ fuel) →
    List.Forall₂ (Reads (readField (readValue fuel))) (writeFields fields) fields
  | [], fuel, enough => .nil
  | (name, value) :: fields, fuel, enough => by
    obtain ⟨here, others⟩ := List.forall_mem_cons.mp enough
    have shorter : value.write.length ≤ fuel := by
      simp only [List.length_append, List.length_cons] at here
      omega
    exact .cons (reads_field (reads_write value fuel shorter) name) (reads_writeFields fields fuel others)

end

/-- Reading back what `JSON.stringify` wrote. -/
theorem parse_stringify (value : Json) : parse (stringify value) = some value := by
  have text : (stringify value).toList = value.write := String.toList_ofList
  have read := reads_write value value.write.length (Nat.le_refl _) []
  rw [List.append_nil] at read
  unfold parse
  rw [text, read]
  rfl

end Json
end Foundation
