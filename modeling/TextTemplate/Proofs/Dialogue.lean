import Mathlib.Data.List.Basic
import TextTemplate.Proofs.Effects

/-!
# Dialogues

Prompts read and change a part of a buffer that nothing else reads or changes, its *dialogue*.  So the
answers to the prompts of an expansion depend on the prompts before them and not on the text
(`Buffer.ask_congr`), and the prompts that a buffer has been asked grow by those among the effects
(`Work.prompts_performAll`).
-/

namespace TextTemplate

/-- The part of a buffer that prompts read and change. -/
structure Dialogue where
  answers : List String
  prompter : Option Prompter
  asked : List String
  prompts : List String

namespace Buffer

/-- The dialogue of a buffer. -/
def dialogue (b : Buffer) : Dialogue := ⟨b.answers, b.prompter, b.asked, b.prompts⟩

@[simp] theorem dialogue_moveTo (b : Buffer) (p : Nat) : (b.moveTo p).dialogue = b.dialogue := rfl

@[simp] theorem dialogue_insertText (b : Buffer) (s : List Char) :
    (b.insertText s).dialogue = b.dialogue := by
  unfold insertText
  split <;> rfl

@[simp] theorem dialogue_removeIndent (b : Buffer) (start n : Nat) :
    (b.removeIndent start n).1.dialogue = b.dialogue := by
  unfold removeIndent
  split <;> rfl

@[simp] theorem dialogue_insertIndent (b : Buffer) (start n : Nat) :
    (b.insertIndent start n).1.dialogue = b.dialogue := by
  unfold insertIndent
  split <;> rfl

@[simp] theorem dialogue_reindentLine (b : Buffer) :
    b.reindentLine.1.dialogue = b.dialogue := by
  simp only [reindentLine]
  split
  · rfl
  · exact (dialogue_insertIndent ..).trans (dialogue_removeIndent ..)

/-- A prompt is remembered, whether or not it gets an answer. -/
theorem prompts_ask (b : Buffer) (prompt : String) :
    (b.ask prompt).1.prompts = b.prompts ++ [prompt] := by
  unfold ask
  dsimp only
  split <;> rfl

/-- Buffers with one dialogue give the same answer, and have one dialogue after that. -/
theorem ask_congr {b c : Buffer} (h : b.dialogue = c.dialogue) (prompt : String) :
    (b.ask prompt).1.dialogue = (c.ask prompt).1.dialogue ∧
      (b.ask prompt).2 = (c.ask prompt).2 := by
  obtain ⟨hanswers, hprompter, hasked, hprompts⟩ := Dialogue.mk.inj h
  unfold ask
  simp only [hanswers, hprompter, hasked, hprompts]
  split <;> exact ⟨rfl, rfl⟩

end Buffer

/-- The prompt that an effect asks. -/
def Effect.question? : Effect → Option String
  | .ask prompt => some prompt
  | _ => none

namespace Work

/-- Only prompts change the dialogue. -/
theorem dialogue_perform (w : Work) {f : Effect} (hf : f.question? = none) :
    (w.perform f).buffer.dialogue = w.buffer.dialogue := by
  cases f with
  | insert s => simp [perform]
  | mark => rfl
  | exchange =>
    simp only [perform, exchange]
    split <;> rfl
  | reindent => simp [perform]
  | ask prompt => cases hf
  | keep name a => rfl

theorem prompts_perform (w : Work) (f : Effect) :
    (w.perform f).buffer.prompts = w.buffer.prompts ++ f.question?.toList := by
  cases hf : f.question? with
  | none =>
    rw [Option.toList_none, List.append_nil]
    exact congrArg Dialogue.prompts (w.dialogue_perform hf)
  | some prompt =>
    cases f with
    | ask prompt' =>
      cases hf
      exact w.buffer.prompts_ask prompt
    | _ => cases hf

/-- The prompts of the effects come after those that there were. -/
theorem prompts_performAll (w : Work) (fs : List Effect) :
    (w.performAll fs).buffer.prompts = w.buffer.prompts ++ fs.filterMap Effect.question? := by
  induction fs generalizing w with
  | nil => exact (List.append_nil _).symm
  | cons f fs ih =>
    rw [performAll_cons, ih, prompts_perform, List.append_assoc]
    simp only [List.filterMap_eq_flatMap_toList, List.flatMap_cons]

end Work

end TextTemplate
