import Sm4ns3.Lib.Json.Value

/-!
# Reading JSON text

`Text num v t` says that `t` is a JSON text of the value `v`, with white space
allowed between tokens; `num` decodes the number tokens. `parse` is a reader by
recursive descent that reads one value and, like jsoncpp's, ignores what
follows it. `parse_text`: the reader accepts every text of a canonical value
and returns that value.

The descent runs on fuel. A level of nesting takes two steps and at least two
octets, so twice the length of the text is enough (`parse_text` has no fuel
left to choose).
-/

namespace Json

open Bytes

/-! ## Tokens -/

def isSpace (c : UInt8) : Bool := c == 32 || c == 9 || c == 10 || c == 13

def isDigit (c : UInt8) : Bool := 48 ≤ c && c ≤ 57

/-- The octets of a number token: digits, signs, point and exponent mark. -/
def isNumberChar (c : UInt8) : Bool :=
  isDigit c || c == 45 || c == 43 || c == 46 || c == 101 || c == 69

def Spaces (w : List UInt8) : Prop := ∀ c ∈ w, isSpace c = true

def skipSpaces (s : List UInt8) : List UInt8 := s.dropWhile isSpace

/-- A string body up to its closing quote, escapes left alone, and the text
after the quote. -/
def scanString : List UInt8 → Option (List UInt8 × List UInt8)
  | [] => none
  | c :: s =>
    if c = 34 then some ([], s)
    else if c = 92 then
      match s with
      | [] => none
      | d :: s => (scanString s).map fun (body, rest) => (92 :: d :: body, rest)
    else (scanString s).map fun (body, rest) => (c :: body, rest)

/-- The UTF-8 octets of a code point of the basic plane. -/
def utf8 (n : Nat) : List UInt8 :=
  if n < 128 then [n.toUInt8]
  else if n < 2048 then [(192 + n / 64).toUInt8, (128 + n % 64).toUInt8]
  else [(224 + n / 4096).toUInt8, (128 + n / 64 % 64).toUInt8, (128 + n % 64).toUInt8]

/-- What a one-letter escape stands for. -/
def escapeChar (c : UInt8) : Option UInt8 :=
  if c = 34 ∨ c = 92 ∨ c = 47 then some c
  else if c = 98 then some 8
  else if c = 102 then some 12
  else if c = 110 then some 10
  else if c = 114 then some 13
  else if c = 116 then some 9
  else none

/-- Replace the escapes of a string body. -/
def unescape : List UInt8 → Option (List UInt8)
  | [] => some []
  | c :: s =>
    if c = 92 then
      match s with
      | 117 :: a :: b :: c :: d :: s => do
        let n := (← hexValue a) * 4096 + (← hexValue b) * 256 + (← hexValue c) * 16 + (← hexValue d)
        return utf8 n ++ (← unescape s)
      | e :: s => do return (← escapeChar e) :: (← unescape s)
      | [] => none
    else do return c :: (← unescape s)

/-! ## The reader -/

section Reader

variable (num : List UInt8 → Option Json)

/-- A literal at the head of the text. -/
def readLiteral (lit : List UInt8) (v : Json) (s : List UInt8) : Option (Json × List UInt8) :=
  if lit <+: s then some (v, s.drop lit.length) else none

mutual
def readValue : Nat → List UInt8 → Option (Json × List UInt8)
  | 0, _ => none
  | fuel + 1, s =>
    match skipSpaces s with
    | [] => none
    | c :: s =>
      if c = 123 then
        match skipSpaces s with
        | 125 :: s => some (.object [], s)
        | s => (readMembers fuel s).map fun (ms, rest) => (.object (ofMembers ms), rest)
      else if c = 91 then
        match skipSpaces s with
        | 93 :: s => some (.array [], s)
        | s => (readElements fuel s).map fun (xs, rest) => (.array xs, rest)
      else if c = 34 then do
        let (body, rest) ← scanString s
        return (.string (← unescape body), rest)
      else if isNumberChar c then
        (num (c :: s.takeWhile isNumberChar)).map fun v => (v, s.dropWhile isNumberChar)
      else if c = 110 then readLiteral (str "null") .null (c :: s)
      else if c = 116 then readLiteral (str "true") (.boolean true) (c :: s)
      else readLiteral (str "false") (.boolean false) (c :: s)

def readElements : Nat → List UInt8 → Option (List Json × List UInt8)
  | 0, _ => none
  | fuel + 1, s => do
    let (v, s) ← readValue fuel s
    match skipSpaces s with
    | 44 :: s => do
      let (vs, s) ← readElements fuel s
      return (v :: vs, s)
    | 93 :: s => some ([v], s)
    | _ => none

def readMembers : Nat → List UInt8 → Option (Members × List UInt8)
  | 0, _ => none
  | fuel + 1, s =>
    match skipSpaces s with
    | 34 :: s => do
      let (body, s) ← scanString s
      let k ← unescape body
      match skipSpaces s with
      | 58 :: s => do
        let (v, s) ← readValue fuel s
        match skipSpaces s with
        | 44 :: s => do
          let (ms, s) ← readMembers fuel s
          return ((k, v) :: ms, s)
        | 125 :: s => some ([(k, v)], s)
        | _ => none
      | _ => none
    | _ => none
end

/-- Read one value. -/
def parse (s : List UInt8) : Option Json := (readValue num (2 * s.length + 1) s).map Prod.fst

end Reader

/-! ## The grammar -/

/-- A token with white space around it. -/
def Padded (core t : List UInt8) : Prop := ∃ a b, Spaces a ∧ Spaces b ∧ t = a ++ (core ++ b)

/-- `"body"`, where `body` has no unescaped quote, spells the string `s`. -/
def Quoted (s t : List UInt8) : Prop :=
  ∃ body, t = 34 :: (body ++ [34]) ∧ unescape body = some s ∧
    ∀ rest, scanString (body ++ 34 :: rest) = some (body, rest)

/-- A number token that decodes to `v`. -/
def Number (num : List UInt8 → Option Json) (v : Json) (t : List UInt8) : Prop :=
  t ≠ [] ∧ (∀ c ∈ t, isNumberChar c = true) ∧ num t = some v

section Grammar

variable (num : List UInt8 → Option Json)

mutual
/-- `t` is a text of the value. -/
def Text : Json → List UInt8 → Prop
  | .null, t => Padded (str "null") t
  | .boolean true, t => Padded (str "true") t
  | .boolean false, t => Padded (str "false") t
  | .int i, t => ∃ tok, Number num (.int i) tok ∧ Padded tok t
  | .uint n, t => ∃ tok, Number num (.uint n) tok ∧ Padded tok t
  | .real d, t => ∃ tok, Number num (.real d) tok ∧ Padded tok t
  | .string s, t => ∃ q, Quoted s q ∧ Padded q t
  | .array xs, t => ∃ e, TextElements xs e ∧ Padded (91 :: (e ++ [93])) t
  | .object ms, t => ∃ e, TextMembers ms e ∧ Padded (123 :: (e ++ [125])) t

/-- The texts of the elements, separated by commas. -/
def TextElements : List Json → List UInt8 → Prop
  | [], t => Spaces t
  | [v], t => Text v t
  | v :: w :: vs, t => ∃ a b, Text v a ∧ TextElements (w :: vs) b ∧ t = a ++ 44 :: b

/-- The members `"key":text`, separated by commas. -/
def TextMembers : Members → List UInt8 → Prop
  | [], t => Spaces t
  | [(k, v)], t => ∃ q p a, Quoted k q ∧ Padded q p ∧ Text v a ∧ t = p ++ 58 :: a
  | (k, v) :: m :: ms, t =>
    ∃ q p a b, Quoted k q ∧ Padded q p ∧ Text v a ∧ TextMembers (m :: ms) b ∧
      t = p ++ 58 :: (a ++ 44 :: b)
end

end Grammar

/-! ## White space -/

theorem Spaces.append {a b : List UInt8} (ha : Spaces a) (hb : Spaces b) : Spaces (a ++ b) := by
  intro c hc
  rcases List.mem_append.mp hc with h | h
  · exact ha c h
  · exact hb c h

theorem skipSpaces_append {a : List UInt8} (ha : Spaces a) (s : List UInt8) :
    skipSpaces (a ++ s) = skipSpaces s := by
  induction a with
  | nil => rfl
  | cons c a ih =>
    have hc : isSpace c = true := ha c List.mem_cons_self
    have hrest := ih fun d hd => ha d (List.mem_cons_of_mem c hd)
    simpa [skipSpaces, hc] using hrest

theorem skipSpaces_cons {c : UInt8} (h : isSpace c = false) (s : List UInt8) :
    skipSpaces (c :: s) = c :: s := by
  simp [skipSpaces, h]

theorem skipSpaces_idem (s : List UInt8) : skipSpaces (skipSpaces s) = skipSpaces s := by
  induction s with
  | nil => rfl
  | cons c s ih =>
    by_cases hc : isSpace c = true
    · simpa [skipSpaces, hc] using ih
    · have hf : isSpace c = false := by simpa using hc
      rw [skipSpaces_cons hf, skipSpaces_cons hf]

/-- White space before a token that does not start with a space. -/
theorem skipSpaces_token {a : List UInt8} (ha : Spaces a) {c : UInt8} (hc : isSpace c = false)
    (s : List UInt8) : skipSpaces (a ++ c :: s) = c :: s := by
  rw [skipSpaces_append ha, skipSpaces_cons hc]

/-! ## The reader on a token -/

/-- A number token ends before `rest`. -/
def Stops (rest : List UInt8) : Prop := ∀ c s, rest = c :: s → isNumberChar c = false

theorem comma_plain : isSpace 44 = false ∧ isNumberChar 44 = false := ⟨rfl, rfl⟩

theorem colon_plain : isSpace 58 = false ∧ isNumberChar 58 = false := ⟨rfl, rfl⟩

theorem bracket_plain : isSpace 93 = false ∧ isNumberChar 93 = false := ⟨rfl, rfl⟩

theorem brace_plain : isSpace 125 = false ∧ isNumberChar 125 = false := ⟨rfl, rfl⟩

theorem isNumberChar_of_isSpace {c : UInt8} (h : isSpace c = true) : isNumberChar c = false := by
  simp only [isSpace, Bool.or_eq_true, beq_iff_eq] at h
  rcases h with ((rfl | rfl) | rfl) | rfl <;> decide

theorem Stops.append {b rest : List UInt8} (hb : Spaces b) (h : Stops rest) :
    Stops (b ++ rest) := by
  intro c s e
  cases b with
  | nil => exact h c s e
  | cons d b =>
    obtain rfl : d = c := by simpa using congrArg List.head? e
    exact isNumberChar_of_isSpace (hb d List.mem_cons_self)

theorem stops_cons {c : UInt8} (h : isNumberChar c = false) (s : List UInt8) : Stops (c :: s) := by
  rintro d t ⟨⟩
  exact h

theorem takeWhile_token {tok r : List UInt8} (h : ∀ c ∈ tok, isNumberChar c = true)
    (hrest : Stops r) :
    (tok ++ r).takeWhile isNumberChar = tok ∧ (tok ++ r).dropWhile isNumberChar = r := by
  induction tok with
  | nil =>
    cases r with
    | nil => exact ⟨rfl, rfl⟩
    | cons c s =>
      have hc := hrest c s rfl
      simp [hc]
  | cons c tok ih =>
    have hc : isNumberChar c = true := h c List.mem_cons_self
    obtain ⟨ht, hd⟩ := ih fun d hd => h d (List.mem_cons_of_mem c hd)
    simp [hc, ht, hd]

section Tokens

variable {num : List UInt8 → Option Json}

theorem readValue_skipSpaces (fuel : Nat) (s : List UInt8) :
    readValue num fuel (skipSpaces s) = readValue num fuel s := by
  cases fuel with
  | zero => rfl
  | succ fuel => simp only [readValue, skipSpaces_idem]

theorem readElements_skipSpaces (fuel : Nat) (s : List UInt8) :
    readElements num fuel (skipSpaces s) = readElements num fuel s := by
  cases fuel with
  | zero => rfl
  | succ fuel => simp only [readElements, readValue_skipSpaces]

theorem readMembers_skipSpaces (fuel : Nat) (s : List UInt8) :
    readMembers num fuel (skipSpaces s) = readMembers num fuel s := by
  cases fuel with
  | zero => rfl
  | succ fuel => simp only [readMembers, skipSpaces_idem]

theorem readValue_null {t rest : List UInt8} (h : Padded (str "null") t) (fuel : Nat) :
    ∃ w, Spaces w ∧ readValue num (fuel + 1) (t ++ rest) = some (.null, w ++ rest) := by
  obtain ⟨a, b, ha, hb, rfl⟩ := h
  refine ⟨b, hb, ?_⟩
  rw [readValue, List.append_assoc,
    show str "null" ++ b ++ rest = 110 :: 117 :: 108 :: 108 :: (b ++ rest) from rfl,
    skipSpaces_token ha (by decide)]
  rfl

theorem readValue_boolean {t rest : List UInt8} (c : Bool)
    (h : Padded (if c then str "true" else str "false") t) (fuel : Nat) :
    ∃ w, Spaces w ∧ readValue num (fuel + 1) (t ++ rest) = some (.boolean c, w ++ rest) := by
  obtain ⟨a, b, ha, hb, rfl⟩ := h
  refine ⟨b, hb, ?_⟩
  rw [readValue, List.append_assoc]
  cases c with
  | true =>
    rw [show (if true then str "true" else str "false") ++ b ++ rest =
        116 :: 114 :: 117 :: 101 :: (b ++ rest) from rfl, skipSpaces_token ha (by decide)]
    rfl
  | false =>
    rw [show (if false then str "true" else str "false") ++ b ++ rest =
        102 :: 97 :: 108 :: 115 :: 101 :: (b ++ rest) from rfl, skipSpaces_token ha (by decide)]
    rfl

/-- A number token starts no string, array, object or white space. -/
theorem isNumberChar_start {c : UInt8} (h : isNumberChar c = true) :
    isSpace c = false ∧ c ≠ 123 ∧ c ≠ 91 ∧ c ≠ 34 := by
  have hs : isSpace c = false := by
    by_contra hsp
    rw [isNumberChar_of_isSpace (by simpa using hsp)] at h
    cases h
  refine ⟨hs, ?_, ?_, ?_⟩ <;> rintro rfl <;> exact absurd h (by decide)

theorem readValue_number {v : Json} {tok t rest : List UInt8} (hn : Number num v tok)
    (h : Padded tok t) (hrest : Stops rest) (fuel : Nat) :
    ∃ w, Spaces w ∧ readValue num (fuel + 1) (t ++ rest) = some (v, w ++ rest) := by
  obtain ⟨a, b, ha, hb, rfl⟩ := h
  obtain ⟨hne, hall, hnum⟩ := hn
  obtain ⟨c, cs, rfl⟩ := List.exists_cons_of_ne_nil hne
  have hc := hall c List.mem_cons_self
  obtain ⟨hsp, h1, h2, h3⟩ := isNumberChar_start hc
  obtain ⟨htake, hdrop⟩ := takeWhile_token (r := b ++ rest)
    (fun d hd => hall d (List.mem_cons_of_mem c hd)) (hrest.append hb)
  refine ⟨b, hb, ?_⟩
  rw [readValue, show a ++ (c :: cs ++ b) ++ rest = a ++ c :: (cs ++ (b ++ rest)) by simp,
    skipSpaces_token ha hsp]
  simp only [h1, h2, h3, hc, if_false, if_true, htake, hdrop, hnum, Option.map_some]

theorem readValue_string {s q t rest : List UInt8} (hq : Quoted s q) (h : Padded q t)
    (fuel : Nat) :
    ∃ w, Spaces w ∧ readValue num (fuel + 1) (t ++ rest) = some (.string s, w ++ rest) := by
  obtain ⟨a, b, ha, hb, rfl⟩ := h
  obtain ⟨body, rfl, hesc, hscan⟩ := hq
  refine ⟨b, hb, ?_⟩
  rw [readValue, show a ++ (34 :: (body ++ [34]) ++ b) ++ rest =
      a ++ 34 :: (body ++ 34 :: (b ++ rest)) by simp, skipSpaces_token ha (by decide)]
  simp [hscan, hesc]

end Tokens

/-! ## The reader accepts every text -/

/-- A value's text starts, after white space, with an octet that opens a value. -/
theorem text_start {num : List UInt8 → Option Json} {v : Json} {t : List UInt8}
    (h : Text num v t) (rest : List UInt8) :
    ∃ c s, skipSpaces (t ++ rest) = c :: s ∧ c ≠ 93 := by
  have key : ∀ core, Padded core t → (∃ c cs, core = c :: cs ∧ isSpace c = false ∧ c ≠ 93) →
      ∃ c s, skipSpaces (t ++ rest) = c :: s ∧ c ≠ 93 := by
    rintro core ⟨a, b, ha, -, rfl⟩ ⟨c, cs, rfl, hsp, hne⟩
    refine ⟨c, cs ++ b ++ rest, ?_, hne⟩
    rw [show a ++ (c :: cs ++ b) ++ rest = a ++ c :: (cs ++ b ++ rest) by simp]
    exact skipSpaces_token ha hsp _
  have number : ∀ w, (∃ tok, Number num w tok ∧ Padded tok t) →
      ∃ c s, skipSpaces (t ++ rest) = c :: s ∧ c ≠ 93 := by
    rintro w ⟨tok, ⟨hne, hall, -⟩, hp⟩
    obtain ⟨c, cs, rfl⟩ := List.exists_cons_of_ne_nil hne
    have hc := hall c List.mem_cons_self
    refine key _ hp ⟨c, cs, rfl, (isNumberChar_start hc).1, ?_⟩
    rintro rfl
    exact absurd hc (by decide)
  cases v with
  | null => exact key _ h ⟨110, _, rfl, by decide, by decide⟩
  | boolean b => cases b <;> exact key _ h ⟨_, _, rfl, by decide, by decide⟩
  | int i => exact number _ h
  | uint n => exact number _ h
  | real d => exact number _ h
  | string s =>
    obtain ⟨q, ⟨body, rfl, -⟩, hp⟩ := h
    exact key _ hp ⟨34, _, rfl, by decide, by decide⟩
  | array xs =>
    obtain ⟨e, -, hp⟩ := h
    exact key _ hp ⟨91, _, rfl, by decide, by decide⟩
  | object ms =>
    obtain ⟨e, -, hp⟩ := h
    exact key _ hp ⟨123, _, rfl, by decide, by decide⟩

section Complete

variable {num : List UInt8 → Option Json}

/-- A nonempty list of elements does not start like an empty one. -/
theorem elements_start {x : Json} {xs : List Json} {e : List UInt8}
    (h : TextElements num (x :: xs) e) (rest : List UInt8) :
    ∃ c s, skipSpaces (e ++ rest) = c :: s ∧ c ≠ 93 := by
  cases xs with
  | nil => exact text_start h rest
  | cons y ys =>
    obtain ⟨a, b, ha, -, rfl⟩ := h
    rw [List.append_assoc]
    exact text_start ha _

/-- A nonempty list of members starts with a quote. -/
theorem members_start {k : List UInt8} {v : Json} {ms : Members} {e : List UInt8}
    (h : TextMembers num ((k, v) :: ms) e) (rest : List UInt8) :
    ∃ s, skipSpaces (e ++ rest) = 34 :: s := by
  have key : ∀ {q p : List UInt8} (tail : List UInt8), Quoted k q → Padded q p →
      ∃ s, skipSpaces (p ++ tail) = 34 :: s := by
    rintro q p tail ⟨body, rfl, -⟩ ⟨a, b, ha, -, rfl⟩
    refine ⟨body ++ [34] ++ b ++ tail, ?_⟩
    rw [show a ++ (34 :: (body ++ [34]) ++ b) ++ tail = a ++ 34 :: (body ++ [34] ++ b ++ tail) by
      simp]
    exact skipSpaces_token ha (by decide) _
  cases ms with
  | nil =>
    obtain ⟨q, p, a, hq, hp, -, rfl⟩ := h
    rw [List.append_assoc]
    exact key _ hq hp
  | cons m ms =>
    obtain ⟨q, p, a, b, hq, hp, -, -, rfl⟩ := h
    rw [List.append_assoc]
    exact key _ hq hp

/-- The key of a member and the colon after it. -/
theorem read_key {k q p : List UInt8} (hq : Quoted k q) (hp : Padded q p) (s : List UInt8) :
    ∃ body b, Spaces b ∧ skipSpaces (p ++ 58 :: s) = 34 :: (body ++ 34 :: (b ++ 58 :: s)) ∧
      unescape body = some k ∧
      scanString (body ++ 34 :: (b ++ 58 :: s)) = some (body, b ++ 58 :: s) := by
  obtain ⟨body, rfl, hesc, hscan⟩ := hq
  obtain ⟨a, b, ha, hb, rfl⟩ := hp
  refine ⟨body, b, hb, ?_, hesc, hscan _⟩
  rw [show a ++ (34 :: (body ++ [34]) ++ b) ++ 58 :: s =
      a ++ 34 :: (body ++ 34 :: (b ++ 58 :: s)) by simp]
  exact skipSpaces_token ha (by decide) _

/-- Reading back a padded array or object: the brackets are found and the
white space after the closing one is left. -/
theorem padded_bracket {o c : UInt8} {e t r : List UInt8} (ho : isSpace o = false)
    (h : Padded (o :: (e ++ [c])) t) :
    ∃ w, Spaces w ∧ skipSpaces (t ++ r) = o :: (e ++ c :: (w ++ r)) ∧
      e.length + 2 ≤ t.length := by
  obtain ⟨a, b, ha, hb, rfl⟩ := h
  refine ⟨b, hb, ?_, by simp only [List.length_append, List.length_cons, List.length_nil]; omega⟩
  rw [show a ++ (o :: (e ++ [c]) ++ b) ++ r = a ++ o :: (e ++ c :: (b ++ r)) by simp]
  exact skipSpaces_token ha ho _

mutual
theorem readValue_text : ∀ (v : Json) {t r : List UInt8} {n : Nat},
    Text num v t → Stops r → 2 * t.length + 1 ≤ n →
    ∃ w, Spaces w ∧ readValue num n (t ++ r) = some (merged v, w ++ r)
  | .null, t, rest, fuel + 1, h, _, _ => readValue_null h fuel
  | .boolean true, t, rest, fuel + 1, h, _, _ => readValue_boolean true h fuel
  | .boolean false, t, rest, fuel + 1, h, _, _ => readValue_boolean false h fuel
  | .int _, t, rest, fuel + 1, h, hrest, _ => by
    obtain ⟨tok, hn, hp⟩ := h
    exact readValue_number hn hp hrest fuel
  | .uint _, t, rest, fuel + 1, h, hrest, _ => by
    obtain ⟨tok, hn, hp⟩ := h
    exact readValue_number hn hp hrest fuel
  | .real _, t, rest, fuel + 1, h, hrest, _ => by
    obtain ⟨tok, hn, hp⟩ := h
    exact readValue_number hn hp hrest fuel
  | .string _, t, rest, fuel + 1, h, _, _ => by
    obtain ⟨q, hq, hp⟩ := h
    exact readValue_string hq hp fuel
  | .array [], t, rest, fuel + 1, h, _, _ => by
    obtain ⟨e, he, hp⟩ := h
    obtain ⟨w, hw, hskip, -⟩ := padded_bracket (r := rest) (by decide) hp
    refine ⟨w, hw, ?_⟩
    rw [readValue, hskip]
    simp [merged, mergedElements, skipSpaces_token he bracket_plain.1]
  | .array (x :: xs), t, rest, fuel + 1, h, _, hfuel => by
    obtain ⟨e, he, hp⟩ := h
    obtain ⟨w, hw, hskip, hlen⟩ := padded_bracket (r := rest) (by decide) hp
    have hread := readElements_text (x :: xs) (r := w ++ rest) (n := fuel) (by simp) he
      (by omega)
    obtain ⟨c, s, hs, hne⟩ := elements_start he (93 :: (w ++ rest))
    rw [← readElements_skipSpaces, hs] at hread
    refine ⟨w, hw, ?_⟩
    rw [readValue, hskip]
    simp only [show (91 : UInt8) ≠ 123 by decide, if_false, if_true, hs]
    split
    · rename_i heq
      exact absurd (List.cons.inj heq).1 hne
    · rw [hread]
      rfl
  | .object [], t, rest, fuel + 1, h, _, _ => by
    obtain ⟨e, he, hp⟩ := h
    obtain ⟨w, hw, hskip, -⟩ := padded_bracket (r := rest) (by decide) hp
    refine ⟨w, hw, ?_⟩
    rw [readValue, hskip]
    simp [merged, mergedMembers, ofMembers,
      skipSpaces_token he brace_plain.1]
  | .object ((k, v) :: ms), t, rest, fuel + 1, h, _, hfuel => by
    obtain ⟨e, he, hp⟩ := h
    obtain ⟨w, hw, hskip, hlen⟩ := padded_bracket (r := rest) (by decide) hp
    have hread := readMembers_text ((k, v) :: ms) (r := w ++ rest) (n := fuel) (by simp) he
      (by omega)
    obtain ⟨s, hs⟩ := members_start he (125 :: (w ++ rest))
    rw [← readMembers_skipSpaces, hs] at hread
    refine ⟨w, hw, ?_⟩
    rw [readValue, hskip]
    simp only [if_true, hs]
    split
    · rename_i heq
      exact absurd (List.cons.inj heq).1 (by decide)
    · rw [hread]
      rfl

theorem readElements_text : ∀ (xs : List Json) {e r : List UInt8} {n : Nat}, xs ≠ [] →
    TextElements num xs e → 2 * e.length + 2 ≤ n →
    readElements num n (e ++ 93 :: r) = some (mergedElements xs, r)
  | [v], e, rest, fuel + 1, _, h, hfuel => by
    obtain ⟨w, hw, hread⟩ := readValue_text v (n := fuel) h
      (stops_cons bracket_plain.2 rest) (by omega)
    rw [readElements, hread]
    simp [mergedElements, skipSpaces_token hw bracket_plain.1]
  | v :: x :: xs, e, rest, fuel + 1, _, h, hfuel => by
    obtain ⟨a, b, ha, hb, rfl⟩ := h
    simp only [List.length_append, List.length_cons] at hfuel
    obtain ⟨w, hw, hread⟩ := readValue_text v (n := fuel) ha
      (stops_cons comma_plain.2 (b ++ 93 :: rest)) (by omega)
    have hmore := readElements_text (x :: xs) (r := rest) (n := fuel) (by simp) hb
      (by omega)
    rw [readElements, show a ++ 44 :: b ++ 93 :: rest = a ++ 44 :: (b ++ 93 :: rest) by simp, hread]
    simp [mergedElements, skipSpaces_token hw comma_plain.1, hmore]

theorem readMembers_text : ∀ (ms : Members) {e r : List UInt8} {n : Nat}, ms ≠ [] →
    TextMembers num ms e → 2 * e.length + 2 ≤ n →
    readMembers num n (e ++ 125 :: r) = some (mergedMembers ms, r)
  | [(k, v)], e, rest, fuel + 1, _, h, hfuel => by
    obtain ⟨q, p, a, hq, hp, ha, rfl⟩ := h
    simp only [List.length_append, List.length_cons] at hfuel
    obtain ⟨body, c, hsp, hskip, hesc, hscan⟩ := read_key hq hp (a ++ 125 :: rest)
    obtain ⟨w, hw, hread⟩ := readValue_text v (n := fuel) ha
      (stops_cons brace_plain.2 rest) (by omega)
    rw [readMembers, show p ++ 58 :: a ++ 125 :: rest = p ++ 58 :: (a ++ 125 :: rest) by simp,
      hskip]
    simp [mergedMembers, hscan, hesc, skipSpaces_token hsp colon_plain.1,
      hread, skipSpaces_token hw brace_plain.1]
  | (k, v) :: m :: ms, e, rest, fuel + 1, _, h, hfuel => by
    obtain ⟨q, p, a, b, hq, hp, ha, hb, rfl⟩ := h
    simp only [List.length_append, List.length_cons] at hfuel
    obtain ⟨body, c, hsp, hskip, hesc, hscan⟩ := read_key hq hp (a ++ 44 :: (b ++ 125 :: rest))
    obtain ⟨w, hw, hread⟩ := readValue_text v (n := fuel) ha
      (stops_cons comma_plain.2 (b ++ 125 :: rest)) (by omega)
    have hmore := readMembers_text (m :: ms) (r := rest) (n := fuel) (by simp) hb
      (by omega)
    rw [readMembers, show p ++ 58 :: (a ++ 44 :: b) ++ 125 :: rest =
      p ++ 58 :: (a ++ 44 :: (b ++ 125 :: rest)) by simp, hskip]
    simp [mergedMembers, hscan, hesc, skipSpaces_token hsp colon_plain.1,
      hread, skipSpaces_token hw comma_plain.1, hmore]
end

/-- A text is read as its value, with the members of every object merged. -/
theorem parse_merged {v : Json} {t : List UInt8} (h : Text num v t) :
    parse num t = some (merged v) := by
  have hstops : Stops [] := by
    rintro c s ⟨⟩
  obtain ⟨w, -, hread⟩ := readValue_text v (n := 2 * t.length + 1) h hstops (Nat.le_refl _)
  rw [List.append_nil] at hread
  rw [parse, hread]
  rfl

/-- **Completeness**: a text of a canonical value is read as that value. -/
theorem parse_text {v : Json} {t : List UInt8} (hc : canonical v = true) (h : Text num v t) :
    parse num t = some v := by
  rw [parse_merged h, merged_eq hc]

end Complete

end Json
