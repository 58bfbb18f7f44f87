import Mathlib.Data.List.TakeDrop
import Zonemail.Text.Strings

/-!
# White space, ASCII case and a separator

How `trim`, `to_ascii_lowercase` and `split_once` act on each other's results. A text is cut at the
first separator into two parts, which are trimmed; cutting does not mind white space around the
text, and lower-casing the text lower-cases the parts.
-/

namespace Zonemail.Text

/-! ## Dropping at both ends -/

section Ends

variable {α β : Type} {p : α → Bool}

theorem rdropWhile_append_of_forall {front back : List α} (h : ∀ x ∈ back, p x = true) :
    (front ++ back).rdropWhile p = front.rdropWhile p := by
  have hback : back.reverse.dropWhile p = [] :=
    List.dropWhile_eq_nil_iff.mpr (fun x hx => h x (List.mem_reverse.mp hx))
  rw [List.rdropWhile, List.reverse_append, List.dropWhile_append, hback]
  rfl

/-- The two ends can be dropped in either order. -/
theorem dropWhile_rdropWhile (l : List α) :
    (l.rdropWhile p).dropWhile p = (l.dropWhile p).rdropWhile p := by
  have hlast : ∀ x ∈ l.rtakeWhile p, p x = true := fun x hx => List.mem_rtakeWhile_imp hx
  conv_rhs => rw [← List.rdropWhile_append_rtakeWhile (p := p) (l := l), List.dropWhile_append]
  split
  · rename_i hempty
    rw [List.isEmpty_iff] at hempty
    rw [hempty, List.dropWhile_eq_nil_iff.mpr hlast, List.rdropWhile_nil]
  · rw [rdropWhile_append_of_forall hlast]
    refine (List.rdropWhile_eq_self_iff.mpr (fun hne => ?_)).symm
    -- What is left ends as the list without its last drop does.
    have hsuffix := List.dropWhile_suffix (l := l.rdropWhile p) p
    have hwhole : l.rdropWhile p ≠ [] := fun h => hne (by rw [h, List.dropWhile_nil])
    rw [hsuffix.getLast hne]
    exact List.rdropWhile_last_not p l hwhole

/-- What is dropped in front ends before `x`. -/
theorem dropWhile_append_cons {x : α} (hx : p x = false) (front back : List α) :
    (front ++ x :: back).dropWhile p = front.dropWhile p ++ x :: back := by
  rw [List.dropWhile_append]
  split
  · rename_i hempty
    rw [List.isEmpty_iff.mp hempty, List.dropWhile_cons_of_neg (by simp [hx]), List.nil_append]
  · rfl

theorem rdropWhile_append_cons {x : α} (hx : p x = false) (front back : List α) :
    (front ++ x :: back).rdropWhile p = front ++ x :: back.rdropWhile p := by
  rw [List.rdropWhile, List.reverse_append, List.reverse_cons, List.append_assoc,
    List.singleton_append, dropWhile_append_cons hx]
  simp [List.rdropWhile]

theorem rdropWhile_map {f : β → α} (l : List β) :
    (l.map f).rdropWhile p = (l.rdropWhile (p ∘ f)).map f := by
  rw [List.rdropWhile, ← List.map_reverse, List.dropWhile_map, ← List.map_reverse, List.rdropWhile]

end Ends

/-- Trimming at the end before trimming changes nothing. -/
theorem trim_rdropWhile (chars : List Char) :
    trim (String.ofList (chars.rdropWhile isWhitespace)) = trim (String.ofList chars) := by
  rw [trim, trim, trimMatches, trimMatches, String.toList_ofList, String.toList_ofList,
    dropWhile_rdropWhile, List.rdropWhile_idempotent]

theorem trim_dropWhile (chars : List Char) :
    trim (String.ofList (chars.dropWhile isWhitespace)) = trim (String.ofList chars) := by
  rw [trim, trim, trimMatches, trimMatches, String.toList_ofList, String.toList_ofList,
    List.dropWhile_idempotent]

@[simp] theorem trim_trim (s : String) : trim (trim s) = trim s := by
  have h := trim_rdropWhile (s.toList.dropWhile isWhitespace)
  rwa [trim_dropWhile, String.ofList_toList] at h

/-! ## Case -/

/-- Only a small letter is the lower case of another character. -/
theorem eq_of_toLower_eq {c d : Char} (h : c.toLower = d) (hd : ¬ ('a' ≤ d ∧ d ≤ 'z')) : c = d := by
  by_cases hupper : 'A' ≤ c ∧ c ≤ 'Z'
  · have hascii : ∀ n : Fin 128, 'A' ≤ Char.ofNat n ∧ Char.ofNat n ≤ 'Z' →
        'a' ≤ (Char.ofNat n).toLower ∧ (Char.ofNat n).toLower ≤ 'z' := by decide +kernel
    have h90 : c.toNat ≤ 90 := hupper.2
    have hc := hascii ⟨c.toNat, by omega⟩
    rw [Char.ofNat_toNat, h] at hc
    exact absurd (hc hupper) hd
  · have hself : c.toLower = c := dif_neg hupper
    rw [← hself, h]

/-- A text without small letters is only lower-cased from itself. -/
theorem eq_of_toAsciiLowercase_eq {s t : String} (h : toAsciiLowercase s = t)
    (ht : ∀ c ∈ t.toList, ¬ ('a' ≤ c ∧ c ≤ 'z')) : s = t := by
  have hself : ∀ c ∈ s.toList, c = c.toLower := by
    intro c hc
    refine eq_of_toLower_eq rfl (ht _ ?_)
    rw [← h, toAsciiLowercase, String.toList_ofList]
    exact List.mem_map_of_mem hc
  have hlist : s.toList.map (fun c => c) = s.toList.map Char.toLower := List.map_congr_left hself
  rw [← h, toAsciiLowercase, ← hlist, List.map_id', String.ofList_toList]

theorem isWhitespace_toLower (c : Char) : isWhitespace c.toLower = isWhitespace c := by
  by_cases hupper : 'A' ≤ c ∧ c ≤ 'Z'
  · have hascii : ∀ n : Fin 128,
        isWhitespace (Char.ofNat n).toLower = isWhitespace (Char.ofNat n) := by decide +kernel
    have h90 : c.toNat ≤ 90 := hupper.2
    have hc := hascii ⟨c.toNat, by omega⟩
    rwa [Char.ofNat_toNat] at hc
  · exact congrArg isWhitespace (dif_neg hupper)

theorem trim_toAsciiLowercase (s : String) :
    trim (toAsciiLowercase s) = toAsciiLowercase (trim s) := by
  have hsame : isWhitespace ∘ Char.toLower = isWhitespace := funext isWhitespace_toLower
  rw [trim, trim, trimMatches, trimMatches, toAsciiLowercase, toAsciiLowercase,
    String.toList_ofList, String.toList_ofList, List.dropWhile_map, rdropWhile_map, hsame]

/-! ## Parts -/

variable {separator : Char} {s : String}

theorem splitOnce_of_not_mem (h : separator ∉ s.toList) : splitOnce separator s = none := by
  have hspan : s.toList.span (· ≠ separator) = (s.toList, []) := by
    rw [List.span_eq_takeWhile_dropWhile]
    have hall : ∀ c ∈ s.toList, decide (c ≠ separator) = true :=
      fun c hc => decide_eq_true (fun heq => h (heq ▸ hc))
    rw [List.takeWhile_eq_self_iff.mpr hall, List.dropWhile_eq_nil_iff.mpr hall]
  rw [splitOnce, hspan]

theorem splitOnce_append {before after : List Char} (h : separator ∉ before) :
    splitOnce separator (String.ofList (before ++ separator :: after)) =
      some (String.ofList before, String.ofList after) := by
  have hall : ∀ c ∈ before, decide (c ≠ separator) = true :=
    fun c hc => decide_eq_true (fun heq => h (heq ▸ hc))
  have hspan : (before ++ separator :: after).span (· ≠ separator) =
      (before, separator :: after) := by
    rw [List.span_eq_takeWhile_dropWhile, List.takeWhile_append_of_pos hall,
      List.dropWhile_append_of_pos hall]
    simp
  rw [splitOnce, String.toList_ofList, hspan]

/-- A text with a separator, cut at the first one. -/
theorem exists_of_mem (h : separator ∈ s.toList) :
    ∃ before after, s = String.ofList (before ++ separator :: after) ∧ separator ∉ before := by
  obtain ⟨before, after, hs, hbefore⟩ := List.eq_append_cons_of_mem h
  exact ⟨before, after, by rw [← hs, String.ofList_toList], hbefore⟩

/-- The parts before and after the first separator, trimmed. -/
def trimmedParts (separator : Char) (s : String) : Option (String × String) :=
  (splitOnce separator s).map (Prod.map trim trim)

theorem trimmedParts_of_not_mem (h : separator ∉ s.toList) : trimmedParts separator s = none := by
  rw [trimmedParts, splitOnce_of_not_mem h, Option.map_none]

theorem trimmedParts_append {before after : List Char} (h : separator ∉ before) :
    trimmedParts separator (String.ofList (before ++ separator :: after)) =
      some (trim (String.ofList before), trim (String.ofList after)) := by
  rw [trimmedParts, splitOnce_append h]
  rfl

/-- White space around the text makes no difference. -/
theorem trimmedParts_trim (hseparator : isWhitespace separator = false) (s : String) :
    trimmedParts separator (trim s) = trimmedParts separator s := by
  by_cases h : separator ∈ s.toList
  · obtain ⟨before, after, rfl, hbefore⟩ := exists_of_mem h
    have htrim : trim (String.ofList (before ++ separator :: after)) =
        String.ofList (before.dropWhile isWhitespace ++
          separator :: after.rdropWhile isWhitespace) := by
      rw [trim, trimMatches, String.toList_ofList, dropWhile_append_cons hseparator,
        rdropWhile_append_cons hseparator]
    rw [htrim, trimmedParts_append (fun hmem => hbefore ((List.dropWhile_sublist _).mem hmem)),
      trimmedParts_append hbefore, trim_dropWhile, trim_rdropWhile]
  · have htrim : separator ∉ (trim s).toList := fun hmem => h (mem_of_mem_trimMatches hmem)
    rw [trimmedParts_of_not_mem h, trimmedParts_of_not_mem htrim]

/-- Lower-casing the text lower-cases its parts. -/
theorem trimmedParts_toAsciiLowercase (hseparator : ¬ ('a' ≤ separator ∧ separator ≤ 'z'))
    (hlower : separator.toLower = separator) (s : String) :
    trimmedParts separator (toAsciiLowercase s) =
      (trimmedParts separator s).map (Prod.map toAsciiLowercase toAsciiLowercase) := by
  have hmem (chars : List Char) : separator ∈ chars.map Char.toLower ↔ separator ∈ chars := by
    rw [List.mem_map]
    constructor
    · intro h
      obtain ⟨c, hc, heq⟩ := h
      rwa [← eq_of_toLower_eq heq hseparator]
    · exact fun hc => ⟨separator, hc, hlower⟩
  by_cases h : separator ∈ s.toList
  · obtain ⟨before, after, rfl, hbefore⟩ := exists_of_mem h
    have hfold : toAsciiLowercase (String.ofList (before ++ separator :: after)) =
        String.ofList (before.map Char.toLower ++ separator :: after.map Char.toLower) := by
      rw [toAsciiLowercase, String.toList_ofList, List.map_append, List.map_cons, hlower]
    have hpart (chars : List Char) : trim (String.ofList (chars.map Char.toLower)) =
        toAsciiLowercase (trim (String.ofList chars)) := by
      rw [← trim_toAsciiLowercase, toAsciiLowercase, String.toList_ofList]
    rw [hfold, trimmedParts_append (fun hc => hbefore ((hmem before).mp hc)),
      trimmedParts_append hbefore, hpart, hpart]
    rfl
  · have hnot : separator ∉ (toAsciiLowercase s).toList := by
      rw [toAsciiLowercase, String.toList_ofList, hmem]
      exact h
    rw [trimmedParts_of_not_mem h, trimmedParts_of_not_mem hnot, Option.map_none]

end Zonemail.Text
