import Switchyard.Control.Command
import Switchyard.Proofs.Sequencing

/-!
# Text that is cut into its parts again

Words with single blanks between them are the words of their line, and lines that each end in a line end
are the lines of their batch. So whoever writes a batch word by word knows what is read from it.
-/

namespace Switchyard

namespace Text

open Sequencing

variable {isCut : Char → Bool} {text front rest : List Char} {c : Char}

theorem cut_eq_splitOnP (isCut : Char → Bool) (text : List Char) :
    cut isCut text = text.splitOnP isCut := by
  induction text with
  | nil => rfl
  | cons c text ih =>
    have step : cut isCut (c :: text) = pushFront isCut c (cut isCut text) := rfl
    rw [step, ih, List.splitOnP_cons_eq_if_modifyHead]
    cases parts : text.splitOnP isCut with
    | nil => exact absurd parts (List.splitOnP_ne_nil _ _)
    | cons part parts => rfl

/-- Text without a cut stays whole. -/
theorem cut_eq_singleton (whole : ∀ c ∈ text, isCut c = false) : cut isCut text = [text] := by
  rw [cut_eq_splitOnP, List.splitOnP_eq_singleton whole]

/-- A cut parts what stands before it from what stands behind it. -/
theorem cut_append_cons (cuts : isCut c = true) (front rest : List Char) :
    cut isCut (front ++ c :: rest) = cut isCut front ++ cut isCut rest := by
  rw [cut_eq_splitOnP, cut_eq_splitOnP, cut_eq_splitOnP, List.splitOnP_append_cons _ _ cuts]

/-- The part before the first cut comes first. -/
theorem cut_append (whole : ∀ c ∈ front, isCut c = false) (cuts : isCut c = true)
    (rest : List Char) : cut isCut (front ++ c :: rest) = front :: cut isCut rest := by
  rw [cut_eq_splitOnP, cut_eq_splitOnP, List.splitOnP_append_cons_of_forall_mem whole c cuts]

/-- No part of a text that is cut has a cut. -/
theorem solid_of_mem_cut {part : List Char} (member : part ∈ cut isCut text) :
    ∀ c ∈ part, isCut c = false := by
  induction text generalizing part with
  | nil =>
    rw [List.mem_singleton.mp member]
    exact List.forall_mem_nil _
  | cons c text ih =>
    have step : cut isCut (c :: text) = pushFront isCut c (cut isCut text) := rfl
    rw [step] at member
    cases parts : cut isCut text with
    | nil =>
      rw [cut_eq_splitOnP] at parts
      exact absurd parts (List.splitOnP_ne_nil _ _)
    | cons first others =>
      rw [parts] at member ih
      simp only [pushFront] at member
      split at member
      case isTrue =>
        rcases List.mem_cons.mp member with rfl | inside
        · exact List.forall_mem_nil _
        · exact ih inside
      case isFalse whole =>
        rcases List.mem_cons.mp member with rfl | inside
        · exact List.forall_mem_cons.mpr ⟨Bool.eq_false_iff.mpr whole, ih List.mem_cons_self⟩
        · exact ih (List.mem_cons_of_mem _ inside)

/-- At least one character, and no blank. -/
structure IsWord (word : List Char) : Prop where
  nonempty : word ≠ []
  solid : ∀ c ∈ word, isBlank c = false

/-- The words of a text are words. -/
theorem isWord_of_mem_words {word : List Char} (member : word ∈ words text) : IsWord word := by
  obtain ⟨part, some⟩ := List.mem_filter.mp member
  exact ⟨by simpa using some, solid_of_mem_cut part⟩

/-- Words without blanks, by looking at their characters. -/
theorem isWord_of_all {w : String} (shown : (!w.toList.isEmpty && w.toList.all (!isBlank ·)) = true) :
    IsWord w.toList := by
  simp only [Bool.and_eq_true, Bool.not_eq_true', List.all_eq_true] at shown
  exact ⟨by simpa using shown.1, shown.2⟩

/-- Words in a text, with at least one blank between two of them, and any number of blanks around. -/
inductive Spaced : List (List Char) → List Char → Prop where
  | nil {gap : List Char} (blank : ∀ c ∈ gap, isBlank c = true) : Spaced [] gap
  | cons {gap w rest : List Char} {ws : List (List Char)} (blank : ∀ c ∈ gap, isBlank c = true)
      (others : Spaced ws rest) (apart : ∀ c ∈ rest.head?, isBlank c = true) :
      Spaced (w :: ws) (gap ++ (w ++ rest))

/-- Words between single blanks, as they stand on a line. -/
def row (words : List (List Char)) : List Char := [' '].intercalate words

variable {gap : List Char} {ws : List (List Char)} {w : List Char}

/-- Blanks in front of the words are dropped. -/
theorem words_blank_append (blank : ∀ c ∈ gap, isBlank c = true) (text : List Char) :
    words (gap ++ text) = words text := by
  induction gap with
  | nil => rfl
  | cons c gap ih =>
    obtain ⟨own, others⟩ := List.forall_mem_cons.mp blank
    have parts : cut isBlank ([] ++ c :: (gap ++ text)) = [] :: cut isBlank (gap ++ text) :=
      cut_append (List.forall_mem_nil _) own _
    rw [List.nil_append] at parts
    rw [List.cons_append, ← ih others, words, parts]
    rfl

/-- A word in front is the first word. -/
theorem words_word_append (own : IsWord w) (apart : ∀ c ∈ rest.head?, isBlank c = true) :
    words (w ++ rest) = w :: words rest := by
  cases rest with
  | nil =>
    rw [List.append_nil, words, cut_eq_singleton own.solid, List.filter_cons_of_pos (by simpa using own.nonempty)]
    rfl
  | cons c rest =>
    have blank : isBlank c = true := apart c rfl
    have dropped : words ([c] ++ rest) = words rest :=
      words_blank_append (List.forall_mem_singleton.mpr blank) rest
    rw [List.singleton_append] at dropped
    rw [dropped, words, cut_append own.solid blank, List.filter_cons_of_pos (by simpa using own.nonempty)]
    rfl

/-- The words of a text are the words that stand in it. -/
theorem words_of_spaced {text : List Char} (spaced : Spaced ws text) (areWords : ∀ w ∈ ws, IsWord w) :
    words text = ws := by
  induction spaced with
  | nil blank =>
    have none := words_blank_append blank []
    rw [List.append_nil] at none
    exact none
  | cons blank _ apart ih =>
    obtain ⟨own, others⟩ := List.forall_mem_cons.mp areWords
    rw [words_blank_append blank, words_word_append own apart, ih others]

theorem row_cons (w v : List Char) (ws : List (List Char)) :
    row (w :: v :: ws) = w ++ ' ' :: row (v :: ws) := by
  simp [row]

theorem Spaced.blank_cons {text : List Char} (spaced : Spaced ws text) (blank : isBlank c = true) :
    Spaced ws (c :: text) := by
  cases spaced with
  | nil gap => exact .nil (List.forall_mem_cons.mpr ⟨blank, gap⟩)
  | cons gap others apart => exact .cons (List.forall_mem_cons.mpr ⟨blank, gap⟩) others apart

theorem spaced_row (ws : List (List Char)) : Spaced ws (row ws) := by
  have blank : isBlank ' ' = true := by decide
  induction ws with
  | nil => exact .nil (by simp [row])
  | cons w ws ih =>
    cases ws with
    | nil =>
      have alone : Spaced [w] ([] ++ (w ++ [])) := .cons (by simp) (.nil (by simp)) (by simp)
      simpa [row] using alone
    | cons v ws =>
      rw [row_cons]
      exact .cons (List.forall_mem_nil _) (ih.blank_cons blank) (by simpa using blank)

/-- The words of a row are the words that it was made of. -/
theorem words_row (areWords : ∀ w ∈ ws, IsWord w) : words (row ws) = ws :=
  words_of_spaced (spaced_row ws) areWords

/-- Nothing is trimmed from text that neither starts nor ends with a blank. -/
theorem trim_eq_self (first : ∀ c ∈ text.head?, isBlank c = false)
    (last : ∀ c ∈ text.getLast?, isBlank c = false) : trim text = text := by
  have front : text.dropWhile isBlank = text := by
    cases text with
    | nil => rfl
    | cons c rest => rw [List.dropWhile_cons_of_neg (by simp [first c rfl])]
  have back : text.reverse.dropWhile isBlank = text.reverse := by
    rw [← List.head?_reverse] at last
    cases reversed : text.reverse with
    | nil => rfl
    | cons c rest =>
      rw [List.dropWhile_cons_of_neg]
      simp [last c (by rw [reversed]; rfl)]
  rw [trim, front, back, List.reverse_reverse]

theorem head?_row (areWords : ∀ w ∈ ws, IsWord w) : (row ws).head? = ws.head?.bind List.head? := by
  cases ws with
  | nil => rfl
  | cons w ws =>
    cases ws with
    | nil => simp [row]
    | cons v ws =>
      rw [row_cons]
      cases w with
      | nil => exact absurd rfl (areWords [] List.mem_cons_self).nonempty
      | cons c w => rfl

theorem row_ne_nil (areWords : ∀ w ∈ ws, IsWord w) (some : ws ≠ []) : row ws ≠ [] := by
  intro empty
  have first := head?_row areWords
  cases ws with
  | nil => exact some rfl
  | cons w ws =>
    cases w with
    | nil => exact (areWords [] List.mem_cons_self).nonempty rfl
    | cons c w => simp [empty] at first

theorem getLast?_row (areWords : ∀ w ∈ ws, IsWord w) :
    ∀ c ∈ (row ws).getLast?, isBlank c = false := by
  induction ws with
  | nil => simp [row]
  | cons w ws ih =>
    have others : ∀ v ∈ ws, IsWord v := fun v member => areWords v (List.mem_cons_of_mem _ member)
    intro c last
    cases ws with
    | nil =>
      have member : c ∈ w := List.mem_of_getLast? (by simpa [row] using last)
      exact (areWords w List.mem_cons_self).solid c member
    | cons v ws =>
      refine ih others c ?_
      have ends := row_ne_nil others (by simp)
      rw [List.getLast?_eq_some_getLast ends]
      rwa [row_cons, ← List.singleton_append, ← List.append_assoc, List.getLast?_append,
        List.getLast?_eq_some_getLast ends, Option.some_or] at last

/-- No row has a line end. -/
theorem lineEnd_not_mem_row (areWords : ∀ w ∈ ws, IsWord w) :
    ∀ c ∈ row ws, (c == '\n') = false := by
  induction ws with
  | nil => simp [row]
  | cons w ws ih =>
    have others : ∀ v ∈ ws, IsWord v := fun v member => areWords v (List.mem_cons_of_mem _ member)
    have own : ∀ c ∈ w, (c == '\n') = false := by
      intro c member
      have solid := (areWords w List.mem_cons_self).solid c member
      rw [beq_eq_false_iff_ne]
      rintro rfl
      revert solid
      decide
    cases ws with
    | nil => simpa [row] using own
    | cons v ws =>
      rw [row_cons]
      exact List.forall_mem_append.mpr ⟨own, List.forall_mem_cons.mpr ⟨by decide, ih others⟩⟩

/-- The lines of a batch whose lines all end. -/
theorem lines_flatMap {texts : List (List Char)}
    (whole : ∀ text ∈ texts, ∀ c ∈ text, (c == '\n') = false) :
    lines (texts.flatMap (· ++ ['\n'])) = texts ++ [[]] := by
  unfold lines
  induction texts with
  | nil => rfl
  | cons text texts ih =>
    have rest := ih fun t member => whole t (List.mem_cons_of_mem _ member)
    rw [List.flatMap_cons, List.append_assoc, List.singleton_append,
      cut_append (whole text List.mem_cons_self) (by decide), rest, List.cons_append]

end Text

open Text Sequencing

/-- The words of a command, as a line. -/
def commandRow (ws : List String) : String := " ".intercalate ws

variable {ws : List String} {rows : List (List String)}

theorem toList_commandRow (ws : List String) : (commandRow ws).toList = row (ws.map String.toList) := by
  rw [commandRow, String.toList_intercalate]
  rfl

/-- The command on a line is read from its words. -/
theorem Command.ofLine_commandRow (areWords : ∀ w ∈ ws, IsWord w.toList) :
    Command.ofLine (commandRow ws) = (Command.ofWords ws).mapError (.badCommand (commandRow ws)) := by
  have same : ws.map (String.ofList ∘ String.toList) = ws := by
    simp [Function.comp_def]
  rw [Command.ofLine, toList_commandRow, words_row (List.forall_mem_map.mpr areWords), List.map_map,
    same]

/-- The command lines of a batch are its rows, unless one is blank or starts with a number sign. -/
theorem commandLines_join (areWords : ∀ ws ∈ rows, ∀ w ∈ ws, IsWord w.toList)
    (verbs : ∀ ws ∈ rows, ∃ w ∈ ws.head?, w.toList.head? ≠ some '#') :
    commandLines (String.join (rows.map (commandRow · ++ "\n"))) = rows.map commandRow := by
  have batch : (String.join (rows.map (commandRow · ++ "\n"))).toList =
      (rows.map fun ws => row (ws.map String.toList)).flatMap (· ++ ['\n']) := by
    rw [String.toList_join, List.flatMap_map, List.flatMap_map]
    simp [toList_commandRow]
  have whole : ∀ text ∈ rows.map fun ws => row (ws.map String.toList), ∀ c ∈ text,
      (c == '\n') = false := by
    refine List.forall_mem_map.mpr fun ws member => ?_
    exact lineEnd_not_mem_row (List.forall_mem_map.mpr (areWords ws member))
  have kept : ∀ ws ∈ rows, trim (row (ws.map String.toList)) = row (ws.map String.toList) ∧
      (row (ws.map String.toList)).head?.any (· != '#') = true := by
    intro ws member
    have words : ∀ w ∈ ws.map String.toList, IsWord w := List.forall_mem_map.mpr (areWords ws member)
    obtain ⟨w, first, noMark⟩ := verbs ws member
    have start : (row (ws.map String.toList)).head? = w.toList.head? := by
      rw [head?_row words, List.head?_map, Option.mem_def.mp first]
      rfl
    have own := areWords ws member w (List.mem_of_head? first)
    cases chars : w.toList with
    | nil => exact absurd chars own.nonempty
    | cons c rest =>
      have solid := own.solid c (by rw [chars]; exact List.mem_cons_self)
      rw [chars] at start noMark
      refine ⟨trim_eq_self ?_ (getLast?_row words), ?_⟩
      · rw [start]
        rintro _ ⟨⟩
        exact solid
      · rw [start]
        simpa using noMark
  have trimmed : (rows.map fun ws => row (ws.map String.toList)).map trim =
      rows.map fun ws => row (ws.map String.toList) := by
    rw [List.map_map]
    exact List.map_congr_left fun ws member => (kept ws member).1
  have all : (rows.map fun ws => row (ws.map String.toList)).filter
      (fun line => line.head?.any (· != '#')) = rows.map fun ws => row (ws.map String.toList) :=
    List.filter_eq_self.mpr (List.forall_mem_map.mpr fun ws member => (kept ws member).2)
  have last : ([[]].map trim).filter (fun line : List Char => line.head?.any (· != '#')) = [] := rfl
  unfold commandLines
  rw [batch, lines_flatMap whole]
  simp only [List.map_append, trimmed, List.filter_append, all, last, List.append_nil, List.map_map]
  refine List.map_congr_left fun ws member => ?_
  rw [Function.comp_apply, ← toList_commandRow, String.ofList_toList]

end Switchyard
