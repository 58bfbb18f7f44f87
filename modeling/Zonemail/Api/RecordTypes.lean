import Zonemail.Api.Response
import Zonemail.Text.Lowercase

/-!
# Which texts name a record type

`parse_record_type` puts the text between two quotes, as it is, and reads the result as a JSON
string. So besides its name a type can be given by any JSON spelling of the name: `Spells` is the
grammar of these, and `parseRecordType_eq_ok_iff` says that they are all that is accepted. Parsing
is the inverse of `record_type_to_string` on every text but those that spell a name with an escape.
-/

namespace Zonemail.Api

/-! ## Spellings of a name -/

/-- A text spells a name character by character: as it is, or as the escape of its code unit. -/
inductive Spells : List Char → List Char → Prop where
  | nil : Spells [] []
  | plain {c : Char} {text name : List Char} (htext : Spells text name) :
      Spells (c :: text) (c :: name)
  | escape {c d₁ d₂ d₃ d₄ : Char} {text name : List Char}
      (hunit : codeUnit d₁ d₂ d₃ d₄ = some c.toNat) (htext : Spells text name) :
      Spells ('\\' :: 'u' :: d₁ :: d₂ :: d₃ :: d₄ :: text) (c :: name)

theorem Spells.refl (name : List Char) : Spells name name := by
  induction name with
  | nil => exact .nil
  | cons c name ih => exact .plain ih

/-- Without a backslash a name is spelled only as it is. -/
theorem Spells.eq_of_unescaped {text name : List Char} (h : Spells text name)
    (hplain : '\\' ∉ text) : text = name := by
  induction h with
  | nil => rfl
  | plain _ ih => rw [ih (fun hmem => hplain (List.mem_cons_of_mem _ hmem))]
  | escape => exact absurd List.mem_cons_self hplain

/-! ## Letters and digits -/

variable {c : Char}

theorem toNat_of_isAlphanum (h : c.isAlphanum = true) : ' '.toNat < c.toNat ∧ c.toNat < 128 := by
  show 32 < c.toNat ∧ c.toNat < 128
  rcases Bool.or_eq_true_iff.mp h with hletter | hdigit
  · rcases Bool.or_eq_true_iff.mp hletter with hupper | hlower
    · have hrange : 65 ≤ c.toNat ∧ c.toNat ≤ 90 := of_decide_eq_true hupper
      omega
    · have hrange : 97 ≤ c.toNat ∧ c.toNat ≤ 122 :=
        (Bool.and_eq_true_iff.mp hlower).imp of_decide_eq_true of_decide_eq_true
      omega
  · have hrange : 48 ≤ c.toNat ∧ c.toNat ≤ 57 := Char.isDigit_iff_toNat.mp hdigit
    omega

theorem ne_backslash_of_isAlphanum (h : c.isAlphanum = true) : c ≠ '\\' := by
  intro hc
  rw [hc] at h
  cases h

/-- They stand for themselves in a JSON string. -/
theorem plain_of_isAlphanum (h : c.isAlphanum = true) : ¬ (c = '"' ∨ c = '\\' ∨ c < ' ') := by
  intro hspecial
  rcases hspecial with hc | hc | hc
  · rw [hc] at h
    cases h
  · exact ne_backslash_of_isAlphanum h hc
  · exact absurd (toNat_of_isAlphanum h).1 (Nat.not_lt.mpr (Nat.le_of_lt hc))

theorem unescape_plain (h : c.isAlphanum = true) (text : List Char) :
    unescape (c :: text) = (unescape text).map (c :: ·) := by
  have hescape : c = '\\' → False := ne_backslash_of_isAlphanum h
  rw [unescape, if_neg (plain_of_isAlphanum h)]
  · exact fun _ _ _ _ _ hc => absurd hc hescape
  · exact fun _ _ hc => absurd hc hescape

/-- So do their escapes: they are no surrogates. -/
theorem unescape_escape (h : c.isAlphanum = true) {d₁ d₂ d₃ d₄ : Char}
    (hunit : codeUnit d₁ d₂ d₃ d₄ = some c.toNat) (text : List Char) :
    unescape ('\\' :: 'u' :: d₁ :: d₂ :: d₃ :: d₄ :: text) = (unescape text).map (c :: ·) := by
  have hlt := (toNat_of_isAlphanum h).2
  rw [unescape, hunit]
  simp only
  rw [if_neg (by omega), if_neg (by omega), Char.ofNat_toNat]

/-- No escape letter stands for one of them. -/
theorem not_isAlphanum_of_escaped {letter : Char} (h : escaped letter = some c) :
    c.isAlphanum ≠ true := by
  unfold escaped at h
  split at h <;> cases h <;> decide

/-- A number whose character is one of them is its code. -/
theorem toNat_ofNat_of_isAlphanum {n : Nat} (h : (Char.ofNat n).isAlphanum = true) :
    (Char.ofNat n).toNat = n := by
  by_cases hvalid : n.isValidChar
  · exact Text.toNat_ofNat hvalid
  · rw [Char.ofNat, dif_neg hvalid] at h
    cases h

/-- A JSON string reads as a name of letters and digits exactly when it spells the name. -/
theorem unescape_eq_some_iff {text name : List Char} (hname : ∀ c ∈ name, c.isAlphanum = true) :
    unescape text = some name ↔ Spells text name := by
  constructor
  · intro h
    fun_induction unescape text generalizing name with
    | case1 =>
        cases h
        exact .nil
    -- A pair of surrogates is no letter and no digit.
    | case5 d₁ d₂ d₃ d₄ high hhigh _ hsurrogate e₁ e₂ e₃ e₄ text low hlow _ ih =>
        obtain ⟨tail, -, rfl⟩ := Option.map_eq_some_iff.mp h
        have hc := hname _ List.mem_cons_self
        have hcode := toNat_ofNat_of_isAlphanum hc
        have hlt := (toNat_of_isAlphanum hc).2
        omega
    | case8 d₁ d₂ d₃ d₄ text unit hunit _ _ ih =>
        obtain ⟨tail, htail, rfl⟩ := Option.map_eq_some_iff.mp h
        obtain ⟨hc, hrest⟩ := List.forall_mem_cons.mp hname
        exact .escape (hunit.trans (congrArg some (toNat_ofNat_of_isAlphanum hc).symm))
          (ih hrest htail)
    | case10 letter text _ c hescaped ih =>
        obtain ⟨tail, -, rfl⟩ := Option.map_eq_some_iff.mp h
        exact absurd (hname c List.mem_cons_self) (not_isAlphanum_of_escaped hescaped)
    | case12 c text _ _ _ ih =>
        obtain ⟨tail, htail, rfl⟩ := Option.map_eq_some_iff.mp h
        exact .plain (ih (List.forall_mem_cons.mp hname).2 htail)
    | _ => cases h
  · intro h
    induction h with
    | nil => simp [unescape]
    | @plain c text name _ ih =>
        obtain ⟨hc, hrest⟩ := List.forall_mem_cons.mp hname
        rw [unescape_plain hc, ih hrest]
        rfl
    | @escape c d₁ d₂ d₃ d₄ text name hunit _ ih =>
        obtain ⟨hc, hrest⟩ := List.forall_mem_cons.mp hname
        rw [unescape_escape hc hunit, ih hrest]
        rfl

/-! ## Names of record types -/

theorem isAlphanum_recordTypeToString (recordType : RecordType) :
    ∀ c ∈ (recordTypeToString recordType).toList, c.isAlphanum = true := by
  refine List.all_eq_true.mp ?_
  cases recordType <;> decide +kernel

theorem mem_recordTypes (recordType : RecordType) : recordType ∈ recordTypes := by
  cases recordType <;> decide

/-- The names are told apart. -/
theorem recordTypeToString_injective : Function.Injective recordTypeToString := by
  have hnodup : (recordTypes.map recordTypeToString).Nodup := by decide +kernel
  exact fun first second hsame =>
    List.inj_on_of_nodup_map hnodup (mem_recordTypes first) (mem_recordTypes second) hsame

/-- A type is found under its name. -/
theorem find?_recordTypes (recordType : RecordType) :
    recordTypes.find? (fun other =>
      (recordTypeToString other).toList = (recordTypeToString recordType).toList) =
        some recordType := by
  cases hfound : recordTypes.find? (fun other =>
      (recordTypeToString other).toList = (recordTypeToString recordType).toList) with
  | none =>
      have hmissed := List.find?_eq_none.mp hfound recordType (mem_recordTypes recordType)
      exact absurd (decide_eq_true rfl) hmissed
  | some other =>
      have hsame := List.find?_some hfound
      rw [decide_eq_true_eq] at hsame
      rw [recordTypeToString_injective (String.toList_inj.mp hsame)]

/-- A text is read as a record type exactly when it spells the name of the type. -/
theorem parseRecordType_eq_ok_iff {s : String} {recordType : RecordType} :
    parseRecordType s = .ok recordType ↔
      Spells s.toList (recordTypeToString recordType).toList := by
  rw [← unescape_eq_some_iff (isAlphanum_recordTypeToString recordType)]
  simp only [parseRecordType]
  constructor
  · intro h
    split at h
    · cases h
    · rename_i found hnamed
      cases h
      obtain ⟨name, hname, hfound⟩ := Option.bind_eq_some_iff.mp hnamed
      have hsame := List.find?_some hfound
      rw [decide_eq_true_eq] at hsame
      rw [hname, hsame]
  · intro h
    rw [h, Option.bind_some, find?_recordTypes]

/-- Printing and parsing again gives the same type. -/
theorem parseRecordType_recordTypeToString (recordType : RecordType) :
    parseRecordType (recordTypeToString recordType) = .ok recordType :=
  parseRecordType_eq_ok_iff.mpr (.refl _)

/-! ## Exact parsing -/

/-- The text is read as the type whose name it is, and as no type if it is no name. -/
def ParsedExactly (s : String) : Prop :=
  ∀ recordType, parseRecordType s = .ok recordType ↔ s = recordTypeToString recordType

/-- The text spells the name of a type with an escape in it. -/
def EscapedName (s : String) : Prop :=
  '\\' ∈ s.toList ∧ ∃ recordType, Spells s.toList (recordTypeToString recordType).toList

theorem backslash_notMem_recordTypeToString (recordType : RecordType) :
    '\\' ∉ (recordTypeToString recordType).toList := by
  intro hmem
  exact ne_backslash_of_isAlphanum (isAlphanum_recordTypeToString recordType _ hmem) rfl

/-- A text is parsed exactly unless it spells a name with an escape. -/
theorem parsedExactly_iff_not_escapedName (s : String) : ParsedExactly s ↔ ¬ EscapedName s := by
  constructor
  · intro hexact hescaped
    obtain ⟨hbackslash, recordType, hspells⟩ := hescaped
    have hname := (hexact recordType).mp (parseRecordType_eq_ok_iff.mpr hspells)
    rw [hname] at hbackslash
    exact backslash_notMem_recordTypeToString recordType hbackslash
  · intro hplain recordType
    rw [parseRecordType_eq_ok_iff]
    constructor
    · intro hspells
      have hbackslash : '\\' ∉ s.toList := fun hmem => hplain ⟨hmem, recordType, hspells⟩
      exact String.toList_inj.mp (hspells.eq_of_unescaped hbackslash)
    · intro hname
      rw [hname]
      exact .refl _

/-- The escape of the code of A is read as the type A. -/
theorem not_parsedExactly_escape : ¬ ∀ s, ParsedExactly s := by
  intro h
  have hread : parseRecordType "\\u0041" = .ok .A := by decide +kernel
  have hname := (h "\\u0041" .A).mp hread
  exact absurd hname (by decide)

end Zonemail.Api
