import Zonemail.Library.Program

/-!
# Effects that are programs of a lower level

What is one effect to a program may be a whole program over other effects. `Program.expand` puts
that program in its place, so that the effects of other threads may come in between. `Expands` says
which effects of the lower level a history of the upper one stands for. An expansion that ended
takes the program itself to its value (`After.of_expand`), and it obeys a rule when each handler
does, wherever the program may perform its effect (`Safe.expand`).
-/

namespace Library

variable {Effect Lower : Type} {Answer : Effect → Type} {Reply : Lower → Type} {α : Type}

namespace Program

/-- The program with each effect replaced by the program that answers it. -/
def expand (handler : (effect : Effect) → Program Lower Reply (Answer effect)) :
    Program Effect Answer α → Program Lower Reply α
  | .done value => .done value
  | .perform effect resume => handler effect >>= fun answer => (resume answer).expand handler

variable {handler : (effect : Effect) → Program Lower Reply (Answer effect)}

/-- The second history is what the handlers of the first one's effects performed, one after
another, before they gave its answers. -/
inductive Expands (handler : (effect : Effect) → Program Lower Reply (Answer effect)) :
    History Effect Answer → History Lower Reply → Prop where
  | nil : Expands handler [] []
  | snoc {upper : History Effect Answer} {lower part : History Lower Reply} {effect : Effect}
      {answer : Answer effect} :
      Expands handler upper lower → After (handler effect) part (.done answer) →
      Expands handler (upper ++ [⟨effect, answer⟩]) (lower ++ part)

/-- The last effect was performed by its handler, after what the others stand for. -/
theorem Expands.of_snoc {upper : History Effect Answer} {lower : History Lower Reply}
    {event : Σ effect, Answer effect} (h : Expands handler (upper ++ [event]) lower) :
    ∃ front part, lower = front ++ part ∧ Expands handler upper front ∧
      After (handler event.1) part (.done event.2) := by
  generalize hwhole : upper ++ [event] = whole at h
  cases h with
  | nil => simp at hwhole
  | snoc hupper hpart =>
      obtain ⟨rfl, hevent⟩ := List.append_inj' hwhole rfl
      cases hevent
      exact ⟨_, _, rfl, hupper, hpart⟩

/-- An expansion that ended performed what the program stands for until it ended with the same
value. -/
theorem After.of_expand {program : Program Effect Answer α} {history : History Lower Reply}
    {value : α} (h : After (program.expand handler) history (.done value)) :
    ∃ upper, Expands handler upper history ∧ After program upper (.done value) := by
  -- Induction on the program, behind what was performed before it.
  suffices hrest : ∀ {before : History Effect Answer} {lower part : History Lower Reply},
      Expands handler before lower → After (program.expand handler) part (.done value) →
      ∃ upper, Expands handler (before ++ upper) (lower ++ part) ∧
        After program upper (.done value) by
    obtain ⟨upper, hupper, hafter⟩ := hrest .nil h
    exact ⟨upper, hupper, hafter⟩
  clear h
  intro before lower part hbefore h
  induction program generalizing before lower part with
  | done other =>
      obtain ⟨rfl, hvalue⟩ := h.of_done
      cases hvalue
      exact ⟨[], by simpa using hbefore, .refl⟩
  | perform effect resume ih =>
      obtain ⟨first, second, answer, rfl, hfirst, hsecond⟩ := After.of_bind h
      obtain ⟨upper, hupper, hafter⟩ := ih answer (hbefore.snoc hfirst) hsecond
      refine ⟨⟨effect, answer⟩ :: upper, ?_, .step answer hafter⟩
      simpa using hupper

variable {possible : (effect : Lower) → Reply effect → Prop}
  {rule : History Effect Answer → Effect → Prop} {lowerRule : History Lower Reply → Lower → Prop}
  {post : History Effect Answer → α → Prop}

/-- The expansion of a safe program is safe, when the handler of each effect that the program may
perform is. -/
theorem Safe.expand {program : Program Effect Answer α} {upper : History Effect Answer}
    {lower : History Lower Reply} (h : Safe (fun _ _ => True) rule post program upper)
    (hupper : Expands handler upper lower)
    (hhandler : ∀ upper lower effect, Expands handler upper lower → rule upper effect →
      Safe possible lowerRule (fun _ _ => True) (handler effect) lower) :
    Safe possible lowerRule (fun later value => ∃ upper, Expands handler upper later ∧
      post upper value) (program.expand handler) lower := by
  induction h generalizing lower with
  | done hpost => exact .done ⟨_, hupper, hpost⟩
  | @perform effect resume upper hrule _ ih =>
      refine safe_bind (hhandler upper lower effect hupper hrule).traced ?_
      intro later answer hlater
      obtain ⟨part, rfl, hpart⟩ := hlater
      exact ih answer trivial (hupper.snoc hpart)

end Program

end Library
