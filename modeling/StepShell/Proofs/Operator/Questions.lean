import StepShell.Proofs.Operator.Prompting

/-! Sequences of questions. Each question takes from the text of answers the stretch that answers
it, and nothing behind it; so a text that is put together from the answers to some questions gives
each question its own answer. -/

namespace StepShell

/-- What an operator is asked. -/
inductive Question where
  | condition (text : String)
  | command (text : String)
  | input (path : String)
  | fetch (address : String)
  | items (item : String)
  deriving DecidableEq, Repr

/-- What an operator replies. -/
inductive Reply where
  | truth (answer : ConditionAnswer)
  | decision (answer : CommandAnswer)
  | supply (contents : Option String)
  deriving DecidableEq, Repr

namespace Question

/-- Ask an operator. -/
def pose {ω : Type} [Operator ω] (question : Question) (operator : ω) : Reply × ω :=
  match question with
  | .condition text => (Operator.condition text operator).map .truth id
  | .command text => (Operator.command text operator).map .decision id
  | .input path => (Operator.input path operator).map .supply id
  | .fetch address => (Operator.fetch address operator).map .supply id
  | .items item => (Operator.items item operator).map .supply id

/-- Ask an operator one question after the other. -/
def poseAll {ω : Type} [Operator ω] : List Question → ω → List Reply × ω
  | [], operator => ([], operator)
  | question :: questions, operator =>
    let (reply, operator) := question.pose operator
    let (replies, operator) := poseAll questions operator
    (reply :: replies, operator)

/-- The question in writing. -/
def text : Question → String
  | .condition text => Prompted.conditionQuestion text
  | .command text => Prompted.commandQuestion text
  | .input path => Prompted.inputQuestion path
  | .fetch address => Prompted.fetchQuestion address
  | .items item => Prompted.itemsQuestion item

/-- The letters that the question offers, with what each stands for. -/
def choices : Question → List (Char × Reply)
  | .condition _ => [('t', .truth .holds), ('f', .truth .fails), ('e', .truth .execute)]
  | .command _ => [('s', .decision .skip), ('e', .decision .execute), ('a', .decision .abort)]
  | _ => []

/-- Whether the question asks for contents, of which any number of lines are supplied. -/
def asksContents : Question → Bool
  | .condition _ | .command _ => false
  | .input _ | .fetch _ | .items _ => true

/-- The reply where there is no answer: the condition fails, the command is skipped, nothing is
supplied. -/
def safe : Question → Reply
  | .condition _ => .truth .fails
  | .command _ => .decision .skip
  | _ => .supply none

open Prompted (Begins typed taken letter? repeated)

/-- A line that ends the question: it names a letter that is offered, or is the dot behind
contents. -/
def EndsAt (question : Question) (line : List Char) : Prop :=
  if question.asksContents then taken line = ['.']
  else ∃ choice ∈ question.choices, letter? line = some choice.1

instance (question : Question) (line : List Char) : Decidable (question.EndsAt line) :=
  inferInstanceAs (Decidable (if question.asksContents then taken line = ['.']
    else ∃ choice ∈ question.choices, letter? line = some choice.1))

/-- A text answers the question up to `rest`, which follows. With the answer come the reply and what
is written meanwhile: the question, once for each line that is read unless contents are supplied. -/
inductive Answered (question : Question) : List Char → List Char → Reply → String → Prop
  | chosen {lines : List (List Char)} {tail line rest : List Char} {letter : Char} {reply : Reply} :
    (∀ line ∈ lines, '\n' ∉ line ∧ ¬question.EndsAt line) → Begins tail line rest →
      (letter, reply) ∈ question.choices → letter? line = some letter →
      Answered question (typed lines ++ tail) rest reply (repeated question.text (lines.length + 1))
  | supplied {first : List Char} {lines : List (List Char)} {tail dot rest : List Char} :
    question.asksContents → first ≠ [] →
      (∀ line ∈ first :: lines, Text.IsLine line ∧ line ≠ ['.']) → Begins tail dot rest →
      taken dot = ['.'] →
      Answered question (typed (first :: lines) ++ tail) rest
        (.supply (some ("\n".intercalate ((first :: lines).map String.ofList)))) question.text
  | declined {text line rest : List Char} :
    question.asksContents → Begins text line rest → taken line = [] →
      Answered question text rest (.supply none) question.text

/-- A text answers some questions one after the other up to `rest`. -/
inductive AnsweredAll : List Question → List Char → List Char → List Reply → String → Prop
  | done {rest : List Char} : AnsweredAll [] rest rest [] ""
  | next {question : Question} {questions : List Question} {text middle rest : List Char}
    {reply : Reply} {replies : List Reply} {written later : String} :
    question.Answered text middle reply written →
      AnsweredAll questions middle rest replies later →
      AnsweredAll (question :: questions) text rest (reply :: replies) (written ++ later)

variable {question : Question} {before after : Prompted}

section Posing

/-- A question that offers letters is replied to by what the letter that is chosen stands for. -/
theorem pose_chosen {letter : Char} {reply : Reply} (offered : (letter, reply) ∈ question.choices)
    (chosen : before.choose question.text (question.choices.map Prod.fst) = (some letter, after)) :
    question.pose before = (reply, after) := by
  cases question with
  | condition text =>
    have asked : before.choose (Prompted.conditionQuestion text) ['t', 'f', 'e'] =
        (some letter, after) := chosen
    simp only [pose, Operator.condition, asked]
    simp only [choices, List.mem_cons, Prod.mk.injEq, List.not_mem_nil, or_false] at offered
    rcases offered with ⟨rfl, rfl⟩ | ⟨rfl, rfl⟩ | ⟨rfl, rfl⟩ <;> rfl
  | command text =>
    have asked : before.choose (Prompted.commandQuestion text) ['s', 'e', 'a'] =
        (some letter, after) := chosen
    simp only [pose, Operator.command, asked]
    simp only [choices, List.mem_cons, Prod.mk.injEq, List.not_mem_nil, or_false] at offered
    rcases offered with ⟨rfl, rfl⟩ | ⟨rfl, rfl⟩ | ⟨rfl, rfl⟩ <;> rfl
  | input | fetch | items => cases offered

/-- Where no letter is chosen the reply is the safe one. -/
theorem pose_unchosen (letters : question.asksContents = false)
    (unchosen : before.choose question.text (question.choices.map Prod.fst) = (none, after)) :
    question.pose before = (question.safe, after) := by
  cases question with
  | condition text =>
    have asked : before.choose (Prompted.conditionQuestion text) ['t', 'f', 'e'] =
        (none, after) := unchosen
    simp only [pose, Operator.condition, asked]
    rfl
  | command text =>
    have asked : before.choose (Prompted.commandQuestion text) ['s', 'e', 'a'] =
        (none, after) := unchosen
    simp only [pose, Operator.command, asked]
    rfl
  | input | fetch | items => cases letters

theorem pose_contents (supplies : question.asksContents) (before : Prompted) :
    question.pose before =
      (.supply (before.contents question.text).1, (before.contents question.text).2) := by
  cases question with
  | condition | command => cases supplies
  | input | fetch | items => rfl

theorem endsAt_iff (letters : question.asksContents = false) {line : List Char} :
    question.EndsAt line ↔
      ∃ choice ∈ question.choices.map Prod.fst, letter? line = some choice := by
  rw [EndsAt, letters, if_neg (by decide)]
  simp only [List.mem_map, exists_exists_and_eq_and]

theorem asksContents_of_offered {choice : Char × Reply} (offered : choice ∈ question.choices) :
    question.asksContents = false := by
  cases question with
  | condition | command => rfl
  | input | fetch | items => cases offered

/-- A question takes exactly the text that answers it. -/
theorem Answered.pose {rest : List Char} {reply : Reply} {written : String}
    (answered : question.Answered before.unread rest reply written) :
    question.pose before = (reply, before.left rest written) := by
  generalize unread : before.unread = text at answered
  cases answered with
  | chosen refused begins offered letter =>
    have letters := asksContents_of_offered offered
    refine pose_chosen offered (Prompted.choose_typed (fun line member => (refused line member).1)
      (fun line member choice named chosen => ?_) begins letter
      (List.mem_map_of_mem offered) unread)
    exact (refused line member).2 ((endsAt_iff letters).mpr ⟨choice, named, chosen⟩)
  | supplied supplies some each begins ends =>
    rw [pose_contents supplies, Prompted.contents_typed some each begins ends unread]
  | declined supplies begins empty =>
    rw [← unread] at begins
    rw [pose_contents supplies, Prompted.contents_empty begins empty]

/-- Questions that are asked one after the other each take the text that answers them. -/
theorem AnsweredAll.poseAll {questions : List Question} {rest : List Char} {replies : List Reply}
    {written : String} (answered : AnsweredAll questions before.unread rest replies written) :
    poseAll questions before = (replies, before.left rest written) := by
  generalize unread : before.unread = text at answered
  induction answered generalizing before with
  | done =>
    rw [poseAll, Prompted.left, String.append_empty, ← unread]
  | @next question questions text middle rest reply replies written later first _ ih =>
    rw [← unread] at first
    have others : Question.poseAll questions (before.left middle written) =
        (replies, (before.left middle written).left rest later) := ih rfl
    rw [Question.poseAll, first.pose]
    dsimp only
    rw [others, Prompted.left_left]

/-- Where no line of the text ends the question, the reply is the safe one. -/
theorem pose_runsOut
    (endless : ∀ line ∈ Text.cutAt (· == '\n') before.unread, ¬question.EndsAt line) :
    (question.pose before).1 = question.safe := by
  cases letters : question.asksContents with
  | false =>
    obtain ⟨after, unchosen, -⟩ := Prompted.choose_runsOut fun line member choice named chosen =>
      endless line member ((endsAt_iff letters).mpr ⟨choice, named, chosen⟩)
    rw [pose_unchosen letters unchosen]
  | true =>
    have undotted : ∀ line ∈ Text.cutAt (· == '\n') before.unread, taken line ≠ ['.'] := by
      intro line member dot
      refine endless line member ?_
      rw [EndsAt, if_pos letters]
      exact dot
    rw [pose_contents letters, Prompted.contents_runsOut undotted]
    cases question with
    | condition | command => cases letters
    | input | fetch | items => rfl

end Posing

/-- A question takes exactly the lines that answer it and leaves what follows them; so do questions
that are asked one after the other, each of which is replied to as its own lines say. Where the text
runs out before a line that ends the question, the reply is the safe one. -/
theorem answers_reach :
    (∀ (question : Question) (before : Prompted) (rest : List Char) (reply : Reply)
      (written : String), question.Answered before.unread rest reply written →
        question.pose before = (reply, before.left rest written)) ∧
    (∀ (questions : List Question) (before : Prompted) (rest : List Char) (replies : List Reply)
      (written : String), AnsweredAll questions before.unread rest replies written →
        poseAll questions before = (replies, before.left rest written)) ∧
    ∀ (question : Question) (before : Prompted),
      (∀ line ∈ Text.cutAt (· == '\n') before.unread, ¬question.EndsAt line) →
        (question.pose before).1 = question.safe :=
  ⟨fun _ _ _ _ _ answered => answered.pose, fun _ _ _ _ _ answered => answered.poseAll,
    fun _ _ endless => pose_runsOut endless⟩

/-- Two lines of a file, an answer that is none and one that is, and a question for which nothing is
left. -/
theorem answers_reach_three :
    let operator := Prompted.answering "a\nb\n.\nmaybe\n T\nrest"
    let replies := [.supply (some "a\nb"), .truth .holds]
    let written := Prompted.inputQuestion "f" ++ (repeated (Prompted.conditionQuestion "c") 2 ++ "")
    let after := operator.left "rest".toList written
    AnsweredAll [.input "f", .condition "c"] operator.unread "rest".toList replies written ∧
      poseAll [.input "f", .condition "c"] operator = (replies, after) ∧
      (∀ line ∈ Text.cutAt (· == '\n') after.unread, ¬(Question.command "d").EndsAt line) ∧
      ((Question.command "d").pose after).1 = .decision .skip := by
  intro operator replies written after
  have unread : operator.unread = typed ["a".toList, "b".toList] ++ (['.'] ++ '\n' ::
      (typed ["maybe".toList] ++ (" T".toList ++ '\n' :: "rest".toList))) := by decide
  have answered : AnsweredAll [.input "f", .condition "c"] operator.unread "rest".toList replies
      written := by
    rw [unread]
    refine .next (.supplied rfl (by decide) ?_ (.ended (by decide)) (by decide)) (.next ?_ .done)
    · exact List.forall_mem_cons.mpr ⟨⟨.of_all "a" (by decide), by decide⟩,
        List.forall_mem_singleton.mpr ⟨.of_all "b" (by decide), by decide⟩⟩
    · exact .chosen (by decide) (.ended (by decide)) (show ('t', _) ∈ _ by decide) (by decide)
  obtain ⟨-, inOrder, runsOut⟩ := answers_reach
  have endless : ∀ line ∈ Text.cutAt (· == '\n') after.unread,
      ¬(Question.command "d").EndsAt line := by decide
  exact ⟨answered, inOrder _ _ _ _ _ answered, endless, runsOut _ _ endless⟩

end Question

end StepShell
