import Wiretap.Digits

/-! Settings files in TOML. Settings are texts and switches at the top level of a file, so of the
language only that part is read: lines that give a key a string of any of the four kinds or a boolean,
empty lines and comments. Every other construct of the language, as a table, a dotted key, a number, a
date or an array, could only give a setting a value of the wrong type or be a setting that does not
exist, and is refused with the rest of what is malformed. -/

namespace Wiretap

namespace Toml

inductive Value
  | text (s : String)
  | switch (b : Bool)
deriving DecidableEq, Repr

def isBlank (c : Char) : Bool := c = ' ' || c = '\t'

def skipBlanks (cs : List Char) : List Char := cs.dropWhile isBlank

/-- The characters after a line break at the front. -/
def lineBreak? : List Char → Option (List Char)
  | '\n' :: rest => some rest
  | '\r' :: '\n' :: rest => some rest
  | _ => none

/-- A character that may stand in a line as it is: of the control characters only the tab. -/
def isPlain (c : Char) : Bool := c = '\t' || (' ' ≤ c && c ≠ '\x7f')

/-- A character of a key without quotes. -/
def isBare (c : Char) : Bool := c.isAlphanum || c = '_' || c = '-'

/-- The characters after a comment, if there is one. -/
def skipComment (cs : List Char) : List Char :=
  if cs.head? = some '#' then cs.dropWhile isPlain else cs

/-- The characters after what may follow a value on its line: blanks, a comment, and the line break
or the end of the file. -/
def endOfLine? (cs : List Char) : Option (List Char) :=
  match skipComment (skipBlanks cs) with
  | [] => some []
  | c :: rest => lineBreak? (c :: rest)

/-- The character with the number that hexadecimal digits spell. -/
def coded? (digits : List Char) : Option Char :=
  if digits.all (isDigit 16) ∧ (numeral 16 digits).isValidChar then
    some (Char.ofNat (numeral 16 digits))
  else none

/-- The character that an escape stands for, after its backslash. -/
def escape? : List Char → Option (Char × List Char)
  | 'b' :: rest => some ('\x08', rest)
  | 't' :: rest => some ('\t', rest)
  | 'n' :: rest => some ('\n', rest)
  | 'f' :: rest => some ('\x0c', rest)
  | 'r' :: rest => some ('\r', rest)
  | 'e' :: rest => some ('\x1b', rest)
  | '"' :: rest => some ('"', rest)
  | '\\' :: rest => some ('\\', rest)
  | 'x' :: a :: b :: rest => (coded? [a, b]).map fun c => (c, rest)
  | 'u' :: a :: b :: c :: d :: rest => (coded? [a, b, c, d]).map fun c => (c, rest)
  | 'U' :: a :: b :: c :: d :: e :: f :: g :: h :: rest =>
    (coded? [a, b, c, d, e, f, g, h]).map fun c => (c, rest)
  | _ => none

/-- The characters after blanks and line breaks. -/
def skipSpace : List Char → List Char
  | '\r' :: '\n' :: rest => skipSpace rest
  | c :: rest => if c = '\n' ∨ isBlank c then skipSpace rest else c :: rest
  | [] => []

/-- After a backslash at the end of a line: the characters past the break and all space after it. -/
def continuation? (cs : List Char) : Option (List Char) :=
  (lineBreak? (skipBlanks cs)).map skipSpace

theorem dropWhile_length_le (p : Char → Bool) (cs : List Char) :
    (cs.dropWhile p).length ≤ cs.length :=
  (List.dropWhile_sublist p).length_le

theorem skipBlanks_length_le (cs : List Char) : (skipBlanks cs).length ≤ cs.length :=
  dropWhile_length_le isBlank cs

theorem lineBreak?_lt {cs rest : List Char} (h : lineBreak? cs = some rest) :
    rest.length < cs.length := by
  unfold lineBreak? at h
  split at h
  · cases h
    simp
  · cases h
    simp only [List.length_cons]
    omega
  · cases h

theorem skipComment_length_le (cs : List Char) : (skipComment cs).length ≤ cs.length := by
  unfold skipComment
  split
  · exact dropWhile_length_le isPlain cs
  · exact Nat.le_refl _

theorem endOfLine?_le {cs rest : List Char} (h : endOfLine? cs = some rest) :
    rest.length ≤ cs.length := by
  unfold endOfLine? at h
  have hb := skipBlanks_length_le cs
  have hc := skipComment_length_le (skipBlanks cs)
  split at h
  · cases h
    simp
  · next heq =>
    have hl := lineBreak?_lt h
    rw [heq] at hc
    omega

theorem endOfLine?_lt {cs rest : List Char} (h : endOfLine? cs = some rest) (hne : cs ≠ []) :
    rest.length < cs.length := by
  unfold endOfLine? at h
  have hb := skipBlanks_length_le cs
  have hc := skipComment_length_le (skipBlanks cs)
  split at h
  · cases h
    exact List.length_pos_iff.mpr hne
  · next heq =>
    have hl := lineBreak?_lt h
    rw [heq] at hc
    omega

theorem escape?_lt {cs rest : List Char} {c : Char} (h : escape? cs = some (c, rest)) :
    rest.length < cs.length := by
  unfold escape? at h
  split at h <;> simp only [Option.some.injEq, Prod.mk.injEq, Option.map_eq_some_iff, reduceCtorEq] at h
  all_goals first
    | (obtain ⟨-, rfl⟩ := h; simp only [List.length_cons]; omega)
    | (obtain ⟨-, -, -, rfl⟩ := h; simp only [List.length_cons]; omega)

theorem skipSpace_length_le (cs : List Char) : (skipSpace cs).length ≤ cs.length := by
  fun_induction skipSpace cs with
  | case1 rest ih => simp only [List.length_cons]; omega
  | case2 c rest _ _ ih => simp only [List.length_cons]; omega
  | case3 => simp
  | case4 => simp

theorem continuation?_lt {cs rest : List Char} (h : continuation? cs = some rest) :
    rest.length < cs.length := by
  simp only [continuation?, Option.map_eq_some_iff] at h
  obtain ⟨rest', hb, rfl⟩ := h
  have h1 := lineBreak?_lt hb
  have h2 := skipBlanks_length_le cs
  have h3 := skipSpace_length_le rest'
  omega

/-- A string in double quotes, after the first of them. -/
def basic? (cs : List Char) : Option (List Char × List Char) :=
  match cs with
  | [] => none
  | '"' :: rest => some ([], rest)
  | '\\' :: rest =>
    match h : escape? rest with
    | none => none
    | some (c, rest') =>
      have := escape?_lt h
      (basic? rest').map fun (s, rest) => (c :: s, rest)
  | c :: rest =>
    if isPlain c then (basic? rest).map fun (s, rest) => (c :: s, rest) else none
termination_by cs.length
decreasing_by all_goals simp only [List.length_cons]; omega

/-- A string in single quotes, after the first of them. -/
def literal? (cs : List Char) : Option (List Char × List Char) :=
  let body := cs.takeWhile fun c => isPlain c && c ≠ '\''
  match cs.drop body.length with
  | '\'' :: rest => some (body, rest)
  | _ => none

/-- Of the quotes that follow the three at the end of a string, up to two belong to it. -/
def lastQuotes (q : Char) (cs : List Char) : List Char × List Char :=
  let quotes := (cs.takeWhile (· = q)).take 2
  (quotes, cs.drop quotes.length)

/-- A character that may stand in a string of several lines: plain, or of a line break. -/
def spans? (c : Char) (rest : List Char) : Bool :=
  isPlain c || c = '\n' || (c = '\r' && rest.head? = some '\n')

/-- A string of several lines in double quotes, after the first three and a line break. -/
def basicLines? (cs : List Char) : Option (List Char × List Char) :=
  match cs with
  | [] => none
  | '"' :: '"' :: '"' :: rest => some (lastQuotes '"' rest)
  | '\\' :: rest =>
    match h : continuation? rest with
    | some rest' =>
      have := continuation?_lt h
      basicLines? rest'
    | none =>
      match h : escape? rest with
      | none => none
      | some (c, rest') =>
        have := escape?_lt h
        (basicLines? rest').map fun (s, rest) => (c :: s, rest)
  | c :: rest =>
    if spans? c rest then (basicLines? rest).map fun (s, rest) => (c :: s, rest) else none
termination_by cs.length
decreasing_by all_goals simp only [List.length_cons]; omega

/-- A string of several lines in single quotes, after the first three and a line break. -/
def literalLines? : List Char → Option (List Char × List Char)
  | [] => none
  | '\'' :: '\'' :: '\'' :: rest => some (lastQuotes '\'' rest)
  | c :: rest =>
    if spans? c rest then (literalLines? rest).map fun (s, rest) => (c :: s, rest) else none

/-- The characters after a line break, if there is one. -/
def skipBreak (cs : List Char) : List Char := (lineBreak? cs).getD cs

/-- The string with the given characters as a value. -/
def asText (r : List Char × List Char) : Value × List Char := (.text (String.ofList r.1), r.2)

def value? : List Char → Option (Value × List Char)
  | '"' :: '"' :: '"' :: rest => (basicLines? (skipBreak rest)).map asText
  | '"' :: rest => (basic? rest).map asText
  | '\'' :: '\'' :: '\'' :: rest => (literalLines? (skipBreak rest)).map asText
  | '\'' :: rest => (literal? rest).map asText
  | 't' :: 'r' :: 'u' :: 'e' :: rest => some (.switch true, rest)
  | 'f' :: 'a' :: 'l' :: 's' :: 'e' :: rest => some (.switch false, rest)
  | _ => none

def key? : List Char → Option (List Char × List Char)
  | [] => none
  | '"' :: rest => basic? rest
  | '\'' :: rest => literal? rest
  | c :: rest =>
    if isBare c then some (c :: rest.takeWhile isBare, rest.dropWhile isBare) else none

/-- The characters after an equals sign and the blanks around it. -/
def equals? (cs : List Char) : Option (List Char) :=
  match skipBlanks cs with
  | '=' :: rest => some (skipBlanks rest)
  | _ => none

/-- A line with a key and its value, or with neither; and the lines after it. -/
def line? (cs : List Char) : Option (Option (String × Value) × List Char) :=
  match endOfLine? cs with
  | some rest => some (none, rest)
  | none => do
    let (key, cs) ← key? (skipBlanks cs)
    let (value, cs) ← value? (← equals? cs)
    some (some (String.ofList key, value), ← endOfLine? cs)

theorem basic?_lt {cs s rest : List Char} (h : basic? cs = some (s, rest)) :
    rest.length < cs.length := by
  fun_induction basic? cs generalizing s rest with
  | case1 => cases h
  | case2 => cases h; simp
  | case3 => cases h
  | case4 _ c rest' he hlt ih =>
    simp only [Option.map_eq_some_iff, Prod.mk.injEq, Prod.exists] at h
    obtain ⟨s', r', hs, -, rfl⟩ := h
    have := ih hs
    simp only [List.length_cons]
    omega
  | case5 c rest' _ _ _ ih =>
    simp only [Option.map_eq_some_iff, Prod.mk.injEq, Prod.exists] at h
    obtain ⟨s', r', hs, -, rfl⟩ := h
    have := ih hs
    simp only [List.length_cons]
    omega
  | case6 => cases h

theorem literal?_lt {cs s rest : List Char} (h : literal? cs = some (s, rest)) :
    rest.length < cs.length := by
  simp only [literal?] at h
  split at h
  · next heq =>
    cases h
    have hd := congrArg List.length heq
    simp only [List.length_drop, List.length_cons] at hd
    omega
  · cases h

theorem lastQuotes_length_le (q : Char) (cs : List Char) :
    (lastQuotes q cs).2.length ≤ cs.length := by
  simp [lastQuotes]

theorem basicLines?_le {cs s rest : List Char} (h : basicLines? cs = some (s, rest)) :
    rest.length ≤ cs.length := by
  fun_induction basicLines? cs generalizing s rest with
  | case1 => cases h
  | case2 r =>
    have hq := lastQuotes_length_le '"' r
    rw [Option.some.inj h] at hq
    exact Nat.le_add_right_of_le (Nat.le_add_right_of_le (Nat.le_add_right_of_le hq))
  | case3 _ _ _ _ ih =>
    have := ih h
    simp only [List.length_cons]
    omega
  | case4 => cases h
  | case5 _ _ _ _ _ _ ih =>
    simp only [Option.map_eq_some_iff, Prod.mk.injEq, Prod.exists] at h
    obtain ⟨s', r', hs, -, rfl⟩ := h
    have := ih hs
    simp only [List.length_cons]
    omega
  | case6 _ _ _ _ _ ih =>
    simp only [Option.map_eq_some_iff, Prod.mk.injEq, Prod.exists] at h
    obtain ⟨s', r', hs, -, rfl⟩ := h
    have := ih hs
    simp only [List.length_cons]
    omega
  | case7 => cases h

theorem literalLines?_le {cs s rest : List Char} (h : literalLines? cs = some (s, rest)) :
    rest.length ≤ cs.length := by
  fun_induction literalLines? cs generalizing s rest with
  | case1 => cases h
  | case2 r =>
    have hq := lastQuotes_length_le '\'' r
    rw [Option.some.inj h] at hq
    exact Nat.le_add_right_of_le (Nat.le_add_right_of_le (Nat.le_add_right_of_le hq))
  | case3 _ _ _ _ ih =>
    simp only [Option.map_eq_some_iff, Prod.mk.injEq, Prod.exists] at h
    obtain ⟨s', r', hs, -, rfl⟩ := h
    have := ih hs
    simp only [List.length_cons]
    omega
  | case4 => cases h

theorem skipBreak_length_le (cs : List Char) : (skipBreak cs).length ≤ cs.length := by
  unfold skipBreak
  cases h : lineBreak? cs with
  | none => simp
  | some rest => exact Nat.le_of_lt (lineBreak?_lt h)

theorem value?_le {cs rest : List Char} {v : Value} (h : value? cs = some (v, rest)) :
    rest.length ≤ cs.length := by
  unfold value? at h
  split at h <;>
    simp only [Option.map_eq_some_iff, asText, Prod.mk.injEq, Prod.exists, Option.some.injEq,
      reduceCtorEq] at h
  · obtain ⟨s, r, hs, -, rfl⟩ := h
    next cs' =>
    have h1 := basicLines?_le hs
    have h2 := skipBreak_length_le cs'
    simp only [List.length_cons]
    omega
  · obtain ⟨s, r, hs, -, rfl⟩ := h
    have := basic?_lt hs
    simp only [List.length_cons]
    omega
  · obtain ⟨s, r, hs, -, rfl⟩ := h
    next cs' =>
    have h1 := literalLines?_le hs
    have h2 := skipBreak_length_le cs'
    simp only [List.length_cons]
    omega
  · obtain ⟨s, r, hs, -, rfl⟩ := h
    have := literal?_lt hs
    simp only [List.length_cons]
    omega
  · obtain ⟨-, rfl⟩ := h
    simp only [List.length_cons]
    omega
  · obtain ⟨-, rfl⟩ := h
    simp only [List.length_cons]
    omega

theorem key?_lt {cs s rest : List Char} (h : key? cs = some (s, rest)) :
    rest.length < cs.length := by
  unfold key? at h
  split at h
  · cases h
  · have := basic?_lt h
    simp only [List.length_cons]
    omega
  · have := literal?_lt h
    simp only [List.length_cons]
    omega
  · next c r _ _ =>
    split at h
    · cases h
      have := dropWhile_length_le isBare r
      simp only [List.length_cons]
      omega
    · cases h

theorem equals?_lt {cs rest : List Char} (h : equals? cs = some rest) :
    rest.length < cs.length := by
  unfold equals? at h
  have h1 := skipBlanks_length_le cs
  split at h
  · next r heq =>
    cases h
    have h2 := skipBlanks_length_le r
    have h3 := congrArg List.length heq
    simp only [List.length_cons] at h3
    omega
  · cases h

theorem line?_lt {cs rest : List Char} {entry : Option (String × Value)}
    (h : line? cs = some (entry, rest)) (hne : cs ≠ []) : rest.length < cs.length := by
  unfold line? at h
  split at h
  · next heq =>
    cases h
    exact endOfLine?_lt heq hne
  · simp only [Option.bind_eq_bind, Option.bind_eq_some_iff, Option.some.injEq, Prod.mk.injEq,
      Prod.exists] at h
    obtain ⟨k, c1, hk, c2, he, v, c3, hv, c4, hl, -, rfl⟩ := h
    have h1 := skipBlanks_length_le cs
    have h2 := key?_lt hk
    have h3 := equals?_lt he
    have h4 := value?_le hv
    have h5 := endOfLine?_le hl
    omega

/-- The keys and values of the lines, in order. -/
def lines? (cs : List Char) : Option (List (String × Value)) :=
  if hne : cs = [] then some []
  else
    match h : line? cs with
    | none => none
    | some (entry, rest) =>
      have := line?_lt h hne
      (lines? rest).map (entry.toList ++ ·)
termination_by cs.length

/-- The keys and values of a file, before which a byte order mark may stand. -/
def entries? (text : String) : Option (List (String × Value)) :=
  match text.toList with
  | '\ufeff' :: cs => lines? cs
  | cs => lines? cs

end Toml

end Wiretap
