import Mathlib.Data.List.DropRight
import Switchyard.Proofs.Control.Atomicity
import Switchyard.Proofs.Pipeline.Forwarding
import Switchyard.Proofs.Text

/-!
# Batches of commands

A batch is carried out line by line. Lines that are blank or comments are passed over, every other line holds a
command, and the first command that fails ends the batch. So batches can be joined with a line end between them:
the joined batch does what the first one does and, if that succeeds, what the second one does then.
-/

namespace Switchyard

open Sequencing Text

namespace Text

variable {text line : List Char}

/-- A line without a command: it is blank, or after blanks there is a comment. -/
inductive Skipped : List Char → Prop where
  | blank {gap : List Char} (blank : ∀ c ∈ gap, isBlank c = true) : Skipped gap
  | comment {gap rest : List Char} (blank : ∀ c ∈ gap, isBlank c = true) : Skipped (gap ++ '#' :: rest)

/-- The lines of a text are what stands between its line ends. -/
theorem lines_eq_iff {parts : List (List Char)} :
    lines text = parts ↔ parts ≠ [] ∧ (∀ part ∈ parts, '\n' ∉ part) ∧ ['\n'].intercalate parts = text := by
  constructor
  · rintro rfl
    refine ⟨?_, fun part member inside => ?_, ?_⟩
    · rw [lines, cut_eq_splitOnP]
      exact List.splitOnP_ne_nil _ _
    · exact absurd (solid_of_mem_cut member _ inside) (by decide)
    · rw [lines, cut_eq_splitOnP]
      exact List.intercalate_splitOn '\n'
  · rintro ⟨some, solid, rfl⟩
    rw [lines, cut_eq_splitOnP]
    exact List.splitOn_intercalate '\n' solid some

/-- A trimmed text begins with the first character that is not blank. -/
theorem head?_trim (text : List Char) : (trim text).head? = text.find? (!isBlank ·) := by
  rw [List.find?_not_eq_head?_dropWhile]
  show ((text.dropWhile isBlank).rdropWhile isBlank).head? = _
  cases kept : text.dropWhile isBlank with
  | nil => rfl
  | cons c rest =>
    have solid : isBlank c = false := by
      have first := List.head?_dropWhile_not isBlank text
      rw [kept] at first
      exact first
    have some : (c :: rest).rdropWhile isBlank ≠ [] := by
      intro none
      have blank := List.rdropWhile_eq_nil_iff.mp none c List.mem_cons_self
      rw [solid] at blank
      cases blank
    obtain ⟨more, whole⟩ := List.rdropWhile_prefix isBlank (c :: rest)
    rw [← List.head?_append_of_ne_nil _ some, whole]

/-- Batches are read so: a line is passed over if it is empty when trimmed, or starts with a number sign. -/
theorem skipped_iff : Skipped line ↔ ((trim line).head?.any (· != '#')) = false := by
  rw [head?_trim]
  constructor
  · intro skipped
    cases skipped with
    | blank blank =>
      rw [List.find?_eq_none.mpr (by simpa using blank)]
      rfl
    | @comment gap rest blank =>
      have first : (gap ++ '#' :: rest).find? (!isBlank ·) = some '#' :=
        List.find?_eq_some_iff_append.mpr ⟨by decide, gap, rest, rfl, by simpa using blank⟩
      rw [first]
      rfl
  · intro first
    cases found : line.find? (!isBlank ·) with
    | none => exact .blank (by simpa using List.find?_eq_none.mp found)
    | some c =>
      rw [found] at first
      obtain rfl : c = '#' := by simpa using first
      obtain ⟨-, gap, rest, rfl, blank⟩ := List.find?_eq_some_iff_append.mp found
      exact .comment (by simpa using blank)

instance : DecidablePred Skipped := fun _ => decidable_of_iff _ skipped_iff.symm

end Text

/-- The commands on lines, trimmed. -/
def commandsOn (texts : List (List Char)) : List String :=
  ((texts.map trim).filter (·.head?.any (· != '#'))).map String.ofList

theorem commandsOn_cons_of_skipped {line : List Char} (skipped : Skipped line) (texts : List (List Char)) :
    commandsOn (line :: texts) = commandsOn texts := by
  rw [commandsOn, List.map_cons, List.filter_cons_of_neg (by rw [skipped_iff.mp skipped]; decide)]
  rfl

theorem commandsOn_cons_of_not_skipped {line : List Char} (holds : ¬Skipped line) (texts : List (List Char)) :
    commandsOn (line :: texts) = String.ofList (trim line) :: commandsOn texts := by
  rw [skipped_iff, Bool.not_eq_false] at holds
  rw [commandsOn, List.map_cons, List.filter_cons, if_pos holds]
  rfl

/-- The commands of two batches with a line end between them are those of the first and those of the second. -/
theorem commandLines_append (a b : String) :
    commandLines (a ++ "\n" ++ b) = commandLines a ++ commandLines b := by
  have joined : (a ++ "\n" ++ b).toList = a.toList ++ '\n' :: b.toList := by
    simp
  show commandsOn (lines (a ++ "\n" ++ b).toList) = commandsOn (lines a.toList) ++ commandsOn (lines b.toList)
  rw [joined, lines, cut_append_cons (by decide)]
  simp only [commandsOn, List.map_append, List.filter_append]
  rfl

/-- A line keeps names and numbers distinct. -/
theorem ControlPlane.keeps_runLine (line : String) : Keeps Distinct (runLine line) :=
  keeps_ofExcept_bind fun command _ => keeps_run command

namespace Pipeline

variable {α β : Type} {p q : Pipeline} {texts : List (List Char)} {outs : List (Option Nat)} {e : Error}

/-- The pipeline obeys lines: it passes over some and carries the others out, with these answers. -/
inductive Obeys : List (List Char) → Pipeline → List (Option Nat) → Pipeline → Prop where
  | nil (p : Pipeline) : Obeys [] p [] p
  | skip {line : List Char} {texts : List (List Char)} {p q : Pipeline} {outs : List (Option Nat)}
      (skipped : Skipped line) (rest : Obeys texts p outs q) : Obeys (line :: texts) p outs q
  | command {line : List Char} {texts : List (List Char)} {p m q : Pipeline} {made : Option Nat}
      {outs : List (Option Nat)} (holds : ¬Skipped line)
      (done : runLine (String.ofList (trim line)) p = .ok made m) (rest : Obeys texts m outs q) :
      Obeys (line :: texts) p (made :: outs) q

/-! ## A batch is a sequence of lines -/

theorem lifts_onPlane {α : Type} (op : ControlM α) :
    Lifts (·.plane) (fun p plane => { p with plane := plane }) op (onPlane op) where
  ok done := by rw [onPlane, done]
  error failed := by rw [onPlane, failed]

theorem onPlane_bind (x : ControlM α) (f : α → ControlM β) :
    onPlane (x >>= f) = onPlane x >>= fun a => onPlane (f a) := by
  funext p
  show onPlane (EStateM.bind x f) p = EStateM.bind (onPlane x) (fun a => onPlane (f a)) p
  simp only [EStateM.bind, onPlane]
  cases x p.plane <;> rfl

theorem runBatch_eq_mapM (batch : String) : runBatch batch = (commandLines batch).mapM runLine := by
  show onPlane ((commandLines batch).mapM ControlPlane.runLine) = _
  induction commandLines batch with
  | nil => rfl
  | cons line lines ih =>
    rw [List.mapM_cons, List.mapM_cons, onPlane_bind]
    refine congrArg _ (funext fun made => ?_)
    rw [onPlane_bind, ih]
    rfl

/-- The commands succeed one after another exactly if the lines are obeyed. -/
theorem obeys_iff : Obeys texts p outs q ↔ (commandsOn texts).mapM runLine p = .ok outs q := by
  constructor
  · intro obeyed
    induction obeyed with
    | nil p => rfl
    | skip skipped _ ih => rwa [commandsOn_cons_of_skipped skipped]
    | command holds done _ ih =>
      rw [commandsOn_cons_of_not_skipped holds, List.mapM_cons]
      exact state_bind_eq_ok.mpr ⟨_, _, done, state_bind_eq_ok.mpr ⟨_, _, ih, rfl⟩⟩
  · intro done
    induction texts generalizing p outs with
    | nil =>
      cases done
      exact .nil _
    | cons line texts ih =>
      by_cases skipped : Skipped line
      · rw [commandsOn_cons_of_skipped skipped] at done
        exact .skip skipped (ih done)
      · rw [commandsOn_cons_of_not_skipped skipped, List.mapM_cons] at done
        obtain ⟨made, m, first, done⟩ := state_bind_eq_ok.mp done
        obtain ⟨others, q, rest, done⟩ := state_bind_eq_ok.mp done
        cases done
        exact .command skipped first (ih rest)

/-- They fail exactly if one of them does after the lines before it are obeyed. -/
theorem mapM_runLine_eq_error_iff : (commandsOn texts).mapM runLine p = .error e q ↔
    ∃ before line after outs m, texts = before ++ line :: after ∧ Obeys before p outs m ∧ ¬Skipped line ∧
      runLine (String.ofList (trim line)) m = .error e q := by
  constructor
  · intro failed
    induction texts generalizing p with
    | nil => cases failed
    | cons line texts ih =>
      by_cases skipped : Skipped line
      · rw [commandsOn_cons_of_skipped skipped] at failed
        obtain ⟨before, stop, after, outs, m, rfl, obeyed, stops⟩ := ih failed
        exact ⟨line :: before, stop, after, outs, m, rfl, .skip skipped obeyed, stops⟩
      · rw [commandsOn_cons_of_not_skipped skipped, List.mapM_cons] at failed
        rcases state_bind_eq_error.mp failed with here | ⟨made, mid, done, failed⟩
        · exact ⟨[], line, texts, [], _, rfl, .nil _, skipped, here⟩
        · rcases state_bind_eq_error.mp failed with later | ⟨_, _, _, absurd⟩
          · obtain ⟨before, stop, after, outs, m, rfl, obeyed, stops⟩ := ih later
            exact ⟨line :: before, stop, after, made :: outs, m, rfl, .command skipped done obeyed, stops⟩
          · cases absurd
  · rintro ⟨before, line, after, outs, m, rfl, obeyed, holds, failed⟩
    have here : (commandsOn (line :: after)).mapM runLine m = .error e q := by
      rw [commandsOn_cons_of_not_skipped holds, List.mapM_cons]
      exact state_bind_eq_error.mpr (.inl failed)
    have split : commandsOn (before ++ line :: after) = commandsOn before ++ commandsOn (line :: after) := by
      simp only [commandsOn, List.map_append, List.filter_append]
    rw [split, List.mapM_append]
    exact state_bind_eq_error.mpr (.inr ⟨outs, m, obeys_iff.mp obeyed, state_bind_eq_error.mpr (.inl here)⟩)

/-! ## What lines do to a pipeline -/

/-- An answer for every line that holds a command. -/
theorem Obeys.length_eq (obeyed : Obeys texts p outs q) :
    outs.length = (texts.filter (¬Skipped ·)).length := by
  induction obeyed with
  | nil p => rfl
  | skip skipped _ ih => rw [ih, List.filter_cons_of_neg (by simpa using skipped)]
  | command holds _ _ ih =>
    rw [List.filter_cons_of_pos (by simpa using holds), List.length_cons, ih, List.length_cons]

theorem Obeys.distinct (obeyed : Obeys texts p outs q) (distinct : p.plane.Distinct) : q.plane.Distinct := by
  induction obeyed with
  | nil p => exact distinct
  | skip _ _ ih => exact ih distinct
  | @command line texts p m q made outs _ done _ ih =>
    refine ih ?_
    obtain ⟨plane, changed, rfl⟩ := (lifts_onPlane _).eq_ok.mp done
    exact ControlPlane.keeps_runLine _ distinct changed

theorem runLine_atomic (distinct : p.plane.Distinct) (line : String) : AtomicAt (runLine line) p :=
  (lifts_onPlane _).atomicAt rfl (ControlPlane.runLine_atomic distinct line)

/-- Batches compose, in every pipeline: two of them with a line end between them do what the first does and, only
if that succeeds, what the second does then, with the answers of both. A batch succeeds exactly if its lines are
obeyed one after another, and answers once for each line that is no blank and no comment. It fails exactly with
what one line fails with after the lines before it, and that line changes nothing. -/
theorem runBatch_composes (p : Pipeline) :
    (∀ a b, runBatch (a ++ "\n" ++ b) p =
      (do
        let first ← runBatch a
        let second ← runBatch b
        return first ++ second) p) ∧
    ∀ batch,
      (∀ outs q, runBatch batch p = .ok outs q ↔ Obeys (lines batch.toList) p outs q) ∧
      (∀ outs q, runBatch batch p = .ok outs q →
        outs.length = ((lines batch.toList).filter (¬Skipped ·)).length) ∧
      ∀ e q, runBatch batch p = .error e q ↔
        ∃ before line after outs m, lines batch.toList = before ++ line :: after ∧ Obeys before p outs m ∧
          ¬Skipped line ∧ runLine (String.ofList (trim line)) m = .error e q ∧
          (p.plane.Distinct → q = m) := by
  have succeeds (batch : String) (outs : List (Option Nat)) (q : Pipeline) :
      runBatch batch p = .ok outs q ↔ Obeys (lines batch.toList) p outs q := by
    rw [runBatch_eq_mapM]
    exact obeys_iff.symm
  refine ⟨fun a b => ?_, fun batch => ⟨succeeds batch, fun outs q done => ?_, fun e q => ?_⟩⟩
  · simp only [runBatch_eq_mapM, commandLines_append, List.mapM_append]
  · exact ((succeeds batch outs q).mp done).length_eq
  · rw [runBatch_eq_mapM]
    refine mapM_runLine_eq_error_iff.trans ?_
    constructor
    · rintro ⟨before, line, after, outs, m, split, obeyed, holds, failed⟩
      refine ⟨before, line, after, outs, m, split, obeyed, holds, failed, fun distinct => ?_⟩
      exact runLine_atomic (obeyed.distinct distinct) _ failed
    · rintro ⟨before, line, after, outs, m, split, obeyed, holds, failed, -⟩
      exact ⟨before, line, after, outs, m, split, obeyed, holds, failed⟩

/-- Makes a group and a node; lines end in two characters, and the last one has no end. -/
def nodeBatch : String := "# for ports 1 and 2\r\nmc_mgrp_create 1\r\n\r\n  mc_node_create 5 1 2"

/-- Lets the node join the group; then comes a group that is there already. -/
def joinBatch : String := "\t# the node\nmc_node_associate 1 0 \nmc_mgrp_create 1\nmc_mgrp_create 2"

/-- Both batches in a new pipeline: the fourth command fails, and the fifth is not come to. -/
theorem runBatch_composes_hub : ∃ program p after made q,
    Program.load hub = .ok program ∧ new program hubControls .default .initial = .ok p after ∧
      p.plane.Distinct ∧ runBatch nodeBatch p = .ok [none, some 0] made ∧
      [none, some 0].length = ((lines nodeBatch.toList).filter (¬Skipped ·)).length ∧
      runBatch (nodeBatch ++ "\n" ++ joinBatch) p = .error (.duplicateGroup 1) q ∧
      q.plane.multicast = ⟨[(1, [0])], [(0, ⟨5, [1, 2]⟩)], 1⟩ ∧
      ∃ before line after outs m,
        lines (nodeBatch ++ "\n" ++ joinBatch).toList = before ++ line :: after ∧ Obeys before p outs m ∧
        ¬Skipped line ∧ runLine (String.ofList (trim line)) m = .error (.duplicateGroup 1) q ∧ q = m := by
  have first : commandLines nodeBatch = ["mc_mgrp_create 1", "mc_node_create 5 1 2"] := by decide +kernel
  have second : commandLines joinBatch =
      ["mc_node_associate 1 0", "mc_mgrp_create 1", "mc_mgrp_create 2"] := by
    decide +kernel
  have runs : ∃ program p after made q, Program.load hub = .ok program ∧
      new program hubControls .default .initial = .ok p after ∧ p.plane.Distinct ∧
      runBatch nodeBatch p = .ok [none, some 0] made ∧
      runBatch (nodeBatch ++ "\n" ++ joinBatch) p = .error (.duplicateGroup 1) q ∧
      q.plane.multicast = ⟨[(1, [0])], [(0, ⟨5, [1, 2]⟩)], 1⟩ := by
    simp only [runBatch_eq_mapM, commandLines_append, first, second, List.cons_append, List.nil_append,
      List.mapM_cons, List.mapM_nil]
    exact ⟨_, _, _, _, _, rfl, rfl, ⟨List.nodup_nil, List.nodup_nil⟩, rfl, rfl, rfl⟩
  obtain ⟨program, p, after, made, q, loaded, built, distinct, done, failed, stopped⟩ := runs
  have composes := (runBatch_composes p).2
  obtain ⟨before, line, rest, outs, m, split, obeyed, holds, fails, unchanged⟩ := ((composes _).2.2 _ _).mp failed
  exact ⟨program, p, after, made, q, loaded, built, distinct, done, (composes _).2.1 _ _ done, failed, stopped,
    before, line, rest, outs, m, split, obeyed, holds, fails, unchanged distinct⟩

end Pipeline

end Switchyard
