import Zonemail.Text.Strings

/-!
# Facts about lower-casing

Lower-casing a string twice is lower-casing it once, and it neither adds nor moves an `@`. Both rest
on the table of case mappings: `caseRuns_closed` checks it run by run, that no image of a run is
itself mapped, and the rest follows character by character.
-/

namespace Zonemail.Text

/-! ## The table -/

/-- The code point is one that the run maps. -/
def CaseRun.Has (run : CaseRun) (n : Nat) : Prop :=
  run.first ≤ n ∧ n ≤ run.last ∧ (n - run.first) % run.stride = 0

/-- The numbers `low`, `low + stride`, ..., `high` are in none of the runs. -/
def missesAll (low high stride : Nat) (runs : List CaseRun) : Bool :=
  runs.all (fun run => Nat.blt high run.first || Nat.blt run.last low ||
    (Nat.beq ((low + run.first) % 2) 1 && Nat.beq stride 2 && Nat.beq run.stride 2))

theorem not_has_of_missesAll {low high stride n : Nat} {runs : List CaseRun}
    (h : missesAll low high stride runs = true) (hlow : low ≤ n) (hhigh : n ≤ high)
    (hstep : (n - low) % stride = 0) : ∀ run ∈ runs, ¬ run.Has n := by
  intro run hrun hhas
  obtain ⟨hfirst, hlast, hrunStep⟩ := hhas
  have hmiss := List.all_eq_true.mp h run hrun
  simp only [Bool.or_eq_true, Bool.and_eq_true, Nat.blt_eq, Nat.beq_eq] at hmiss
  rcases hmiss with (hbelow | habove) | ⟨⟨hodd, hstride⟩, hrunStride⟩
  · omega
  · omega
  · -- Both are steps of two, one through even and one through odd numbers.
    rw [hstride] at hstep
    rw [hrunStride] at hrunStep
    omega

/-- The images of the run are characters, not mapped themselves, and in ASCII only letters. -/
def CaseRun.closed (run : CaseRun) : Bool :=
  match (run.first + run.shift).toNat, (run.last + run.shift).toNat with
  | low, high =>
      (Nat.ble 128 low || (Nat.ble 97 low && Nat.ble high 122)) &&
        (Nat.blt high 0xD800 || (Nat.blt 0xDFFF low && Nat.blt high 0x110000)) &&
        -- The first one stands for `İ`, which is mapped on its own.
        missesAll low high (if run.first = run.last then 2 else run.stride)
          (⟨304, 304, 2, 0⟩ :: caseRuns)

theorem caseRuns_closed : ∀ run ∈ caseRuns, run.closed = true :=
  List.all_eq_true.mp (by decide +kernel)

/-- The image of a code point that a run maps. -/
theorem CaseRun.image {run : CaseRun} {n : Nat} (hrun : run ∈ caseRuns) (hn : run.Has n) :
    (n + run.shift).toNat.isValidChar ∧
      (128 ≤ (n + run.shift).toNat ∨ 97 ≤ (n + run.shift).toNat ∧ (n + run.shift).toNat ≤ 122) ∧
      (n + run.shift).toNat ≠ 304 ∧ ∀ other ∈ caseRuns, ¬ other.Has (n + run.shift).toNat := by
  obtain ⟨hfirst, hlast, hstep⟩ := hn
  have hclosed := caseRuns_closed run hrun
  simp only [closed, Bool.or_eq_true, Bool.and_eq_true, Nat.blt_eq, Nat.ble_eq] at hclosed
  obtain ⟨⟨hascii, hvalid⟩, hmisses⟩ := hclosed
  have hlow : (run.first + run.shift).toNat ≤ (n + run.shift).toNat := by omega
  have hhigh : (n + run.shift).toNat ≤ (run.last + run.shift).toNat := by omega
  have hmiss := not_has_of_missesAll hmisses hlow hhigh (by
    have hshift : (n + run.shift).toNat - (run.first + run.shift).toNat = n - run.first := by omega
    rw [hshift]
    split
    · omega
    · exact hstep)
  refine ⟨?_, ?_, ?_, fun other hother => hmiss other (List.mem_cons_of_mem _ hother)⟩
  · unfold Nat.isValidChar
    omega
  · omega
  · intro heq
    exact hmiss ⟨304, 304, 2, 0⟩ (List.mem_cons_self ..) (by rw [heq]; simp [Has])

/-! ## Characters -/

/-- Lower-casing leaves the character as it is, wherever it stands. -/
def IsLower (c : Char) : Prop := lowerChar c = [c] ∧ c ≠ 'Σ'

instance (c : Char) : Decidable (IsLower c) := inferInstanceAs (Decidable (_ ∧ _))

/-- A character that no run maps is left as it is. -/
theorem lowerChar_eq_self {c : Char} (hascii : 128 ≤ c.toNat ∨ 97 ≤ c.toNat ∧ c.toNat ≤ 122)
    (hdotted : c.toNat ≠ 304) (hruns : ∀ run ∈ caseRuns, ¬ run.Has c.toNat) :
    lowerChar c = [c] := by
  unfold lowerChar
  split
  · have hlower : c.toLower = c := by
      refine dif_neg ?_
      intro hupper
      have h90 : c.toNat ≤ 90 := hupper.2
      omega
    rw [hlower]
  · rw [if_neg (fun h => hdotted (by rw [h]; rfl))]
    have hnone : caseRuns.find? (fun run => run.first ≤ c.toNat && c.toNat ≤ run.last &&
        (c.toNat - run.first) % run.stride == 0) = none := by
      rw [List.find?_eq_none]
      intro run hrun hhas
      simp only [Bool.and_eq_true, decide_eq_true_eq, beq_iff_eq] at hhas
      exact hruns run hrun ⟨hhas.1.1, hhas.1.2, hhas.2⟩
    rw [hnone]

theorem toNat_ofNat {n : Nat} (h : n.isValidChar) : (Char.ofNat n).toNat = n := by
  rw [Char.ofNat, dif_pos h]
  rfl

/-- The image of a mapped character is in lower case. -/
theorem CaseRun.isLower_image {run : CaseRun} {n : Nat} (hrun : run ∈ caseRuns) (hn : run.Has n) :
    IsLower (Char.ofNat (n + run.shift).toNat) := by
  obtain ⟨hvalid, hascii, hdotted, hmiss⟩ := image hrun hn
  rw [← toNat_ofNat hvalid] at hascii hdotted hmiss
  have hself := lowerChar_eq_self hascii hdotted hmiss
  refine ⟨hself, fun hsigma => ?_⟩
  -- The capital sigma is itself mapped.
  rw [hsigma] at hself
  exact absurd hself (by decide +kernel)

/-- Every character of a lower case is in lower case. -/
theorem isLower_of_mem_lowerChar {c d : Char} (h : d ∈ lowerChar c) : IsLower d := by
  unfold lowerChar at h
  split at h
  · rename_i hascii
    have hlower : ∀ n : Fin 128, IsLower (Char.ofNat n).toLower := by decide +kernel
    rw [List.mem_singleton.mp h, ← Char.ofNat_toNat c]
    exact hlower ⟨c.toNat, hascii⟩
  · split at h
    · have hi : IsLower 'i' := by decide +kernel
      have hdot : IsLower '\u0307' := by decide +kernel
      rcases List.mem_pair.mp h with rfl | rfl
      · exact hi
      · exact hdot
    · rename_i hascii hne
      split at h
      · rename_i hnone
        rw [List.mem_singleton.mp h]
        refine ⟨?_, fun hsigma => ?_⟩
        · unfold lowerChar
          rw [if_neg hascii, if_neg hne, hnone]
        · rw [hsigma] at hnone
          exact absurd hnone (by decide +kernel)
      · rename_i run hfind
        have hhas := List.find?_some hfind
        simp only [Bool.and_eq_true, decide_eq_true_eq, beq_iff_eq] at hhas
        rw [List.mem_singleton.mp h]
        exact run.isLower_image (List.mem_of_find?_eq_some hfind) ⟨hhas.1.1, hhas.1.2, hhas.2⟩

/-- Only an `@` has an `@` in its lower case. -/
theorem eq_at_of_mem_lowerChar {c : Char} (h : '@' ∈ lowerChar c) : c = '@' := by
  unfold lowerChar at h
  split at h
  · rename_i hascii
    have hlower : ∀ n : Fin 128, (Char.ofNat n).toLower = '@' → Char.ofNat n = '@' := by
      decide +kernel
    have heq := hlower ⟨c.toNat, hascii⟩
    simp only [Char.ofNat_toNat] at heq
    exact heq (List.mem_singleton.mp h).symm
  · split at h
    · exact absurd h (by decide)
    · split at h
      · exact (List.mem_singleton.mp h).symm
      · rename_i run hfind
        have hhas := List.find?_some hfind
        simp only [Bool.and_eq_true, decide_eq_true_eq, beq_iff_eq] at hhas
        obtain ⟨hvalid, hascii, -⟩ := run.image (List.mem_of_find?_eq_some hfind)
          ⟨hhas.1.1, hhas.1.2, hhas.2⟩
        rw [← toNat_ofNat hvalid, ← List.mem_singleton.mp h] at hascii
        exact absurd hascii (by decide)

/-! ## Strings -/

/-- Every character of a lower-cased string is in lower case. -/
theorem isLower_of_mem_lowerFrom {before chars : List Char} {d : Char}
    (h : d ∈ lowerFrom before chars) : IsLower d := by
  induction chars generalizing before with
  | nil => cases h
  | cons c after ih =>
      rw [lowerFrom, List.mem_append] at h
      rcases h with h | h
      · split at h
        · have hsigma : IsLower 'ς' ∧ IsLower 'σ' := by decide +kernel
          rw [List.mem_singleton.mp h]
          split
          · exact hsigma.1
          · exact hsigma.2
        · exact isLower_of_mem_lowerChar h
      · exact ih h

/-- Characters in lower case are left as they are. -/
theorem lowerFrom_eq_self {before chars : List Char} (h : ∀ c ∈ chars, IsLower c) :
    lowerFrom before chars = chars := by
  induction chars generalizing before with
  | nil => rfl
  | cons c after ih =>
      obtain ⟨⟨hself, hsigma⟩, hafter⟩ := List.forall_mem_cons.mp h
      rw [lowerFrom, if_neg hsigma, hself, ih hafter]
      rfl

/-- Lower-casing a string twice is lower-casing it once. -/
@[simp] theorem toLowercase_toLowercase (s : String) :
    toLowercase (toLowercase s) = toLowercase s := by
  simp only [toLowercase, String.toList_ofList]
  rw [lowerFrom_eq_self (fun c hc => isLower_of_mem_lowerFrom hc)]

/-- Lower-casing adds no `@`. -/
theorem at_mem_of_lowerFrom {before chars : List Char} (h : '@' ∈ lowerFrom before chars) :
    '@' ∈ chars := by
  induction chars generalizing before with
  | nil => cases h
  | cons c after ih =>
      rw [lowerFrom, List.mem_append] at h
      rcases h with h | h
      · split at h
        · rw [List.mem_singleton] at h
          split at h
          · exact absurd h (by decide)
          · exact absurd h (by decide)
        · rw [eq_at_of_mem_lowerChar h]
          exact List.mem_cons_self ..
      · exact List.mem_cons_of_mem _ (ih h)

/-- A lower case is not empty. -/
theorem lowerChar_ne_nil (c : Char) : lowerChar c ≠ [] := by
  unfold lowerChar
  split
  · exact List.cons_ne_nil _ _
  · split
    · exact List.cons_ne_nil _ _
    · split
      · exact List.cons_ne_nil _ _
      · exact List.cons_ne_nil _ _

theorem toLowercase_ne_empty {s : String} (h : s ≠ "") : toLowercase s ≠ "" := by
  cases hs : s.toList with
  | nil => exact absurd (String.toList_eq_nil_iff.mp hs) h
  | cons c chars =>
      rw [toLowercase, hs, lowerFrom]
      intro hempty
      have hnil := congrArg String.toList hempty
      simp only [String.toList_ofList, String.toList_empty, List.append_eq_nil_iff] at hnil
      split at hnil
      · exact List.cons_ne_nil _ _ hnil.1
      · exact lowerChar_ne_nil c hnil.1

/-- An `@` is not a letter, so a word does not begin before it. -/
theorem ignorableThenCased_append_at (before rest : List Char) :
    ignorableThenCased (before ++ '@' :: rest) = ignorableThenCased before := by
  induction before with
  | nil =>
      have hat : inRanges caseIgnorable '@' = false ∧ inRanges cased '@' = false := by
        decide +kernel
      simp [ignorableThenCased, hat]
  | cons c before ih =>
      by_cases hc : inRanges caseIgnorable c = true
      · simpa [ignorableThenCased, List.dropWhile_cons, hc] using ih
      · simp [ignorableThenCased, hc]

/-- What stands before an `@` has no effect on the lower case of what stands behind it. -/
theorem lowerFrom_append_at (before rest chars : List Char) :
    lowerFrom (before ++ '@' :: rest) chars = lowerFrom before chars := by
  induction chars generalizing before with
  | nil => rfl
  | cons c after ih =>
      rw [lowerFrom, lowerFrom, ignorableThenCased_append_at, ← ih (c :: before)]
      rfl

/-- Lower-casing goes through an `@` part by part. -/
theorem lowerFrom_at (before chars rest : List Char) :
    lowerFrom before (chars ++ '@' :: rest) =
      lowerFrom before chars ++ '@' :: lowerFrom [] rest := by
  induction chars generalizing before with
  | nil =>
      have hat : lowerChar '@' = ['@'] := by decide
      have hrest := lowerFrom_append_at [] before rest
      rw [List.nil_append] at hrest
      rw [List.nil_append]
      show (if '@' = 'Σ' then _ else lowerChar '@') ++ lowerFrom ('@' :: before) rest = _
      rw [if_neg (by decide), hat, hrest]
      rfl
  | cons c after ih =>
      rw [List.cons_append, lowerFrom, lowerFrom, ih, ignorableThenCased_append_at,
        List.append_assoc]

/-- The parts of a lower-cased address are its parts in lower case. -/
theorem split_toLowercase (s : String) :
    split '@' (toLowercase s) = (split '@' s).map toLowercase := by
  have hparts : ∀ chars : List Char, (lowerFrom [] chars).splitOn '@' =
      (chars.splitOn '@').map (lowerFrom []) := by
    intro chars
    -- The part before the first `@` is split off, and the rest is shorter.
    induction hlength : chars.length using Nat.strong_induction_on generalizing chars with
    | _ length ih =>
        by_cases hat : '@' ∈ chars
        · obtain ⟨first, rest, rfl, hfirst⟩ := List.eq_append_cons_of_mem hat
          have hlower : '@' ∉ lowerFrom [] first := fun hmem => hfirst (at_mem_of_lowerFrom hmem)
          rw [lowerFrom_at, List.splitOn_append_cons_self_of_not_mem hlower,
            List.splitOn_append_cons_self_of_not_mem hfirst, List.map_cons,
            ih rest.length (by simp at hlength; omega) rest rfl]
        · have hlower : '@' ∉ lowerFrom [] chars := fun hmem => hat (at_mem_of_lowerFrom hmem)
          rw [List.splitOn_eq_singleton hlower, List.splitOn_eq_singleton hat]
          rfl
  simp [split, toLowercase, hparts, Function.comp_def]

end Zonemail.Text
