import Mathlib.Algebra.Group.Nat.Defs
import Mathlib.Data.List.DropRight
import Zonemail.Text.Unicode

/-!
# String functions of the Rust standard library

The `str` methods the program calls, on Lean strings read as lists of Unicode scalar values. ASCII
case folding is Lean's own `Char.toLower` and `Char.toUpper`; `toLowercase` is the full Unicode
mapping, with the two-character lower case of `İ` and the word-final form of `Σ`.
-/

namespace Zonemail.Text

/-- `char::is_whitespace`. -/
def isWhitespace (c : Char) : Bool := inRanges whiteSpace c

/-- `str::trim_end_matches` with a predicate. -/
def trimEndMatches (drop : Char → Bool) (s : String) : String :=
  String.ofList (s.toList.rdropWhile drop)

/-- `str::trim_start_matches` with a predicate. -/
def trimStartMatches (drop : Char → Bool) (s : String) : String :=
  String.ofList (s.toList.dropWhile drop)

/-- `str::trim_matches` with a predicate: drop the matching characters at both ends. -/
def trimMatches (drop : Char → Bool) (s : String) : String :=
  String.ofList ((s.toList.dropWhile drop).rdropWhile drop)

/-- `str::trim`. -/
def trim (s : String) : String := trimMatches isWhitespace s

/-- `str::starts_with` a string. -/
def startsWith (s start : String) : Bool := start.toList.isPrefixOf s.toList

/-- `str::to_ascii_lowercase`. -/
def toAsciiLowercase (s : String) : String := String.ofList (s.toList.map Char.toLower)

/-- `str::to_ascii_uppercase`. -/
def toAsciiUppercase (s : String) : String := String.ofList (s.toList.map Char.toUpper)

/-- `str::eq_ignore_ascii_case`. -/
def eqIgnoreAsciiCase (s other : String) : Bool := toAsciiLowercase s == toAsciiLowercase other

/-- `str::split` at every occurrence of a character. There is always at least one part. -/
def split (separator : Char) (s : String) : List String :=
  (s.toList.splitOn separator).map String.ofList

/-- `str::split_once`: the parts before and after the first occurrence of a character. -/
def splitOnce (separator : Char) (s : String) : Option (String × String) :=
  match s.toList.span (· ≠ separator) with
  | (_, []) => none
  | (before, _ :: after) => some (String.ofList before, String.ofList after)

/-- `str::split_whitespace`: the parts between runs of white space, none of them empty. -/
def splitWhitespace (s : String) : List String :=
  ((s.toList.splitOnP isWhitespace).filter (fun part => !part.isEmpty)).map String.ofList

/-- The value of decimal digits, the first one first. -/
def decimal (digits : List Char) : Nat :=
  digits.foldl (fun value c => 10 * value + (c.toNat - '0'.toNat)) 0

/-- `str::parse` of an unsigned integer with this many bits: digits after an optional plus sign. -/
def parseUnsigned (bits : Nat) (s : String) : Option Nat :=
  let digits := match s.toList with
    | '+' :: rest => rest
    | chars => chars
  if !digits.isEmpty ∧ digits.all Char.isDigit ∧ decimal digits < 2 ^ bits then
    some (decimal digits)
  else none

/-- Is the next character, after skipping case-ignorable ones, a cased one? -/
def ignorableThenCased (chars : List Char) : Bool :=
  match chars.dropWhile (inRanges caseIgnorable) with
  | [] => false
  | c :: _ => inRanges cased c

/-- `char::to_lowercase`. -/
def lowerChar (c : Char) : List Char :=
  if c.toNat < 128 then [c.toLower]
  else if c = 'İ' then ['i', '\u0307']
  else
    match caseRuns.find? (fun run => run.first ≤ c.toNat && c.toNat ≤ run.last &&
        (c.toNat - run.first) % run.stride == 0) with
    | none => [c]
    | some run => [Char.ofNat (Int.toNat (c.toNat + run.shift))]

/-- Lower-case the characters after `before`, which is given in reverse. A `Σ` that ends a word
becomes `ς`. -/
def lowerFrom (before : List Char) : List Char → List Char
  | [] => []
  | c :: after =>
      (if c = 'Σ' then
        [if ignorableThenCased before && !ignorableThenCased after then 'ς' else 'σ']
      else lowerChar c) ++ lowerFrom (c :: before) after

/-- `str::to_lowercase`. -/
def toLowercase (s : String) : String := String.ofList (lowerFrom [] s.toList)

/-- An `@` stays where it is when its string is lower-cased. -/
theorem at_mem_lowerFrom {before chars : List Char} (h : '@' ∈ chars) :
    '@' ∈ lowerFrom before chars := by
  induction chars generalizing before with
  | nil => cases h
  | cons c after ih =>
      rw [lowerFrom, List.mem_append]
      cases h with
      | head =>
          rw [if_neg (by decide)]
          exact .inl (by decide)
      | tail _ h => exact .inr (ih h)

/-- Lower-casing keeps an address an address. -/
theorem at_mem_toLowercase {s : String} (h : '@' ∈ s.toList) : '@' ∈ (toLowercase s).toList := by
  rw [toLowercase, String.toList_ofList]
  exact at_mem_lowerFrom h

/-- A string with a second part after splitting at `@` contains an `@`. -/
theorem at_mem_of_split {s part : String} (h : (split '@' s)[1]? = some part) :
    '@' ∈ s.toList := by
  by_contra hnot
  rw [split, List.splitOn_eq_singleton hnot] at h
  simp at h

theorem toLower_toLower (c : Char) : c.toLower.toLower = c.toLower := by
  by_cases h : 'A' ≤ c ∧ c ≤ 'Z'
  · have hascii : ∀ n : Fin 128, (Char.ofNat n).toLower.toLower = (Char.ofNat n).toLower := by
      decide +kernel
    have h90 : c.toNat ≤ 90 := h.2
    have hc := hascii ⟨c.toNat, by omega⟩
    rwa [Char.ofNat_toNat] at hc
  · have hself : c.toLower = c := dif_neg h
    rw [hself, hself]

/-- ASCII lower-casing twice is lower-casing once. -/
@[simp] theorem toAsciiLowercase_toAsciiLowercase (s : String) :
    toAsciiLowercase (toAsciiLowercase s) = toAsciiLowercase s := by
  rw [toAsciiLowercase, toAsciiLowercase, String.toList_ofList, List.map_map]
  exact congrArg String.ofList (List.map_congr_left (fun c _ => toLower_toLower c))

/-- The parts of a string with one separator. -/
theorem split_append_cons {separator : Char} {before after : List Char}
    (hbefore : separator ∉ before) (hafter : separator ∉ after) :
    split separator (String.ofList (before ++ separator :: after)) =
      [String.ofList before, String.ofList after] := by
  rw [split, String.toList_ofList, List.splitOn_append_cons_self_of_not_mem hbefore,
    List.splitOn_eq_singleton hafter]
  rfl

/-! ## Trimming and words -/

/-- What trimming drops at the two ends matches. -/
theorem exists_of_trimMatches (drop : Char → Bool) (s : String) :
    ∃ lead tail, s.toList = lead ++ (trimMatches drop s).toList ++ tail ∧
      (∀ c ∈ lead, drop c) ∧ ∀ c ∈ tail, drop c := by
  refine ⟨s.toList.takeWhile drop, (s.toList.dropWhile drop).rtakeWhile drop, ?_, ?_, ?_⟩
  · rw [trimMatches, String.toList_ofList, List.append_assoc, List.rdropWhile, List.rtakeWhile,
      ← List.reverse_append, List.takeWhile_append_dropWhile, List.reverse_reverse,
      List.takeWhile_append_dropWhile]
  · exact fun c hc => List.mem_takeWhile_imp hc
  · exact fun c hc => List.mem_rtakeWhile_imp hc

/-- A character that does not match is not dropped. -/
theorem mem_trimMatches {drop : Char → Bool} {s : String} {c : Char} (h : c ∈ s.toList)
    (hc : drop c = false) : c ∈ (trimMatches drop s).toList := by
  obtain ⟨lead, tail, hs, hlead, htail⟩ := exists_of_trimMatches drop s
  rw [hs] at h
  simp only [List.mem_append] at h
  rcases h with (h | h) | h
  · exact absurd (hlead c h) (by simp [hc])
  · exact h
  · exact absurd (htail c h) (by simp [hc])

/-- Trimming adds no characters. -/
theorem mem_of_mem_trimMatches {drop : Char → Bool} {s : String} {c : Char}
    (h : c ∈ (trimMatches drop s).toList) : c ∈ s.toList := by
  obtain ⟨lead, tail, hs, -⟩ := exists_of_trimMatches drop s
  rw [hs]
  simp [h]

/-- Something is left of a string exactly when one of its characters does not match. -/
theorem trimMatches_ne_empty_iff {drop : Char → Bool} {s : String} :
    trimMatches drop s ≠ "" ↔ ∃ c ∈ s.toList, drop c = false := by
  constructor
  · intro h
    by_contra hall
    push Not at hall
    apply h
    have hempty : s.toList.dropWhile drop = [] :=
      List.dropWhile_eq_nil_iff.mpr (fun c hc => by simpa using hall c hc)
    rw [trimMatches, hempty]
    rfl
  · intro h hempty
    obtain ⟨c, hmem, hc⟩ := h
    have hleft := mem_trimMatches hmem hc
    rw [hempty] at hleft
    simp at hleft

/-- Trimming ends at characters that do not match, so what has one in front and a trimmed string
behind it is left as it is. -/
theorem trimMatches_cons_trimMatches {drop : Char → Bool} {c : Char} {chars : List Char}
    {s : String} (hc : drop c = false) (hs : trimMatches drop s ≠ "") :
    trimMatches drop (String.ofList (c :: chars ++ (trimMatches drop s).toList)) =
      String.ofList (c :: chars ++ (trimMatches drop s).toList) := by
  have hne : (s.toList.dropWhile drop).rdropWhile drop ≠ [] := by
    intro hempty
    exact hs (by rw [trimMatches, hempty])
  have hlast := List.rdropWhile_last_not drop (s.toList.dropWhile drop) hne
  simp only [trimMatches, String.toList_ofList, List.cons_append, List.dropWhile_cons, hc,
    Bool.false_eq_true, if_false]
  rw [List.rdropWhile_eq_self_iff.mpr]
  intro _
  rw [List.getLast_cons (by simp [hne]), List.getLast_append_of_ne_nil _ hne]
  exact hlast

/-- Without parts there is only white space. -/
theorem forall_of_parts_eq_nil {separates : Char → Bool} {chars : List Char}
    (h : (chars.splitOnP separates).filter (fun part => !part.isEmpty) = []) :
    ∀ c ∈ chars, separates c := by
  induction chars with
  | nil => simp
  | cons c rest ih =>
      by_cases hc : separates c
      · rw [List.splitOnP_cons_eq_if_modifyHead, if_pos hc] at h
        exact List.forall_mem_cons.mpr ⟨hc, ih (by simpa using h)⟩
      · -- A first part that begins with `c` is not empty.
        rw [List.splitOnP_cons_eq_if_modifyHead, if_neg hc] at h
        cases hsplit : rest.splitOnP separates with
        | nil => exact absurd hsplit (List.splitOnP_ne_nil _ _)
        | cons part parts => simp [hsplit] at h

/-- The first part follows separators, has none, and ends before a separator or at the end; the
other parts are those of what follows. -/
theorem exists_of_parts_eq_cons {separates : Char → Bool} {chars part : List Char}
    {parts : List (List Char)}
    (h : (chars.splitOnP separates).filter (fun part => !part.isEmpty) = part :: parts) :
    ∃ lead after, chars = lead ++ part ++ after ∧ (∀ c ∈ lead, separates c) ∧ part ≠ [] ∧
      (∀ c ∈ part, separates c = false) ∧ (∀ c ∈ after.head?, separates c) ∧
      (after.splitOnP separates).filter (fun part => !part.isEmpty) = parts := by
  induction chars with
  | nil => simp at h
  | cons c rest ih =>
      by_cases hc : separates c
      · rw [List.splitOnP_cons_eq_if_modifyHead, if_pos hc] at h
        obtain ⟨lead, after, rfl, hlead, hpart⟩ := ih (by simpa using h)
        exact ⟨c :: lead, after, by simp, List.forall_mem_cons.mpr ⟨hc, hlead⟩, hpart⟩
      · -- The first part is what stands before the next separator.
        obtain ⟨word, after, hsplit, hword, hafter⟩ : ∃ word after, c :: rest = word ++ after ∧
            (∀ c ∈ word, separates c = false) ∧ ∀ c ∈ after.head?, separates c := by
          refine ⟨(c :: rest).takeWhile (fun c => !separates c),
            (c :: rest).dropWhile (fun c => !separates c),
            (List.takeWhile_append_dropWhile).symm, ?_, ?_⟩
          · exact fun c hc => by simpa using List.mem_takeWhile_imp hc
          · intro d hd
            have hhead := List.head?_dropWhile_not (fun c => !separates c) (c :: rest)
            rw [Option.mem_def.mp hd] at hhead
            simpa using hhead
        have hne : word ≠ [] := by
          intro heq
          obtain rfl := heq
          rw [List.nil_append] at hsplit
          subst hsplit
          exact hc (hafter c rfl)
        rw [hsplit] at h ⊢
        cases after with
        | nil =>
            rw [List.append_nil, List.splitOnP_eq_singleton hword] at h
            obtain ⟨rfl, rfl⟩ : word = part ∧ [] = parts := by simpa [hne] using h
            exact ⟨[], [], by simp, by simp, hne, hword, by simp, rfl⟩
        | cons separator after =>
            have hseparator := hafter separator rfl
            rw [List.splitOnP_append_cons_of_forall_mem hword separator hseparator] at h
            obtain ⟨rfl, hparts⟩ : word = part ∧
                (after.splitOnP separates).filter (fun part => !part.isEmpty) = parts := by
              simpa [hne] using h
            refine ⟨[], separator :: after, by simp, by simp, hne, hword, hafter, ?_⟩
            rw [List.splitOnP_cons_eq_if_modifyHead, if_pos hseparator]
            simpa using hparts

example : parseUnsigned 16 "+080" = some 80 ∧ parseUnsigned 16 "65536" = none := by decide

example : toLowercase "User@ÉX.Com" = "user@éx.com" := by decide +kernel

example : toLowercase "ΟΔΟΣ" = "οδος" := by decide +kernel

/-! ## Numbers -/

theorem isDigit_of_mem_toString {n : Nat} {c : Char} (h : c ∈ (toString n).toList) :
    c.isDigit = true := by
  rw [Nat.toString_eq_ofList_toDigits, String.toList_ofList] at h
  exact Nat.isDigit_of_mem_toDigits (by decide) (by decide) h

theorem decimal_toString (n : Nat) : decimal (toString n).toList = n := by
  rw [Nat.toString_eq_ofList_toDigits, String.toList_ofList]
  exact Nat.ofDigitChars_toDigits (by decide) (by decide)

/-- A number is read back as it was written. -/
theorem parseUnsigned_toString {bits n : Nat} (h : n < 2 ^ bits) :
    parseUnsigned bits (toString n) = some n := by
  have hdigits : (toString n).toList.all Char.isDigit = true :=
    List.all_eq_true.mpr (fun _ h => isDigit_of_mem_toString h)
  have hsign : (match (toString n).toList with
      | '+' :: rest => rest
      | chars => chars) = (toString n).toList := by
    split
    · rename_i rest heq
      have hplus : '+'.isDigit = true :=
        isDigit_of_mem_toString (by rw [heq]; exact List.mem_cons_self)
      cases hplus
    · rfl
  rw [parseUnsigned, hsign, decimal_toString, if_pos ⟨by simp, hdigits, h⟩]

end Zonemail.Text
