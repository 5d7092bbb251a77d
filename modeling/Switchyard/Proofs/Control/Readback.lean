import Switchyard.Control.Plane
import Switchyard.Proofs.Control.Syntax

/-!
# Commands that were read can be written

Whatever a line looks like, the names in the command that is read from it are words and its numbers are not too
wide. So that command can be written again, and so can others about the same names and numbers.
-/

namespace Switchyard

open Numeral Text Sequencing

namespace Numeral

/-- As many digits, as large a number. -/
theorem Spells.lt_pow {radix n : Nat} {text : List Char} (spells : Spells radix text n) :
    n < radix ^ text.length := by
  induction spells with
  | single last => simpa using last.1
  | @concat text n c d front last ih =>
    rw [List.length_append, List.length_singleton, Nat.pow_succ]
    calc n * radix + d < n * radix + radix := Nat.add_lt_add_left last.1 _
      _ = (n + 1) * radix := (Nat.succ_mul n radix).symm
      _ ≤ radix ^ text.length * radix := Nat.mul_le_mul_right radix ih

theorem Signed.lt_pow {radix n : Nat} {text : List Char} (positive : 0 < radix) (signed : Signed radix text n) :
    n < radix ^ text.length := by
  obtain ⟨digits, rfl | rfl, spells⟩ := signed
  · exact spells.lt_pow
  · exact Nat.lt_of_lt_of_le spells.lt_pow (Nat.pow_le_pow_right positive (Nat.le_succ _))

end Numeral

namespace Literal

theorem IsMac.lt {text : List Char} {v : Nat} (mac : IsMac Signed text v) : v < 256 ^ 6 := by
  obtain ⟨pairs, values, six, each, -, rfl⟩ := mac
  have octets : ∀ value ∈ values, value < 256 := by
    intro value member
    obtain ⟨pair, -, two, signed⟩ := (exists_of_forall₂ each).2 value member
    have small := signed.lt_pow (by decide)
    rwa [two] at small
  have grows (start : Nat) :
      values.foldl (fun v value => v * 256 + value) start < (start + 1) * 256 ^ values.length := by
    clear each
    induction values generalizing start with
    | nil => simp
    | cons value values ih =>
      obtain ⟨own, others⟩ := List.forall_mem_cons.mp octets
      have shifted : start * 256 + value + 1 ≤ (start + 1) * 256 := by omega
      refine Nat.lt_of_lt_of_le (ih others _) ?_
      rw [List.length_cons, Nat.pow_succ', ← Nat.mul_assoc]
      exact Nat.mul_le_mul_right _ shifted
  have total := grows 0
  rwa [← each.length_eq, six, Nat.zero_add, Nat.one_mul] at total

/-- A literal is read as a number of 128 bits. -/
theorem read_lt {text : List Char} {v : Nat} (read : Literal.read text = .ok v) : v < valueBound := by
  cases read_eq_ok_iff.mp read with
  | number _ fits => exact fits
  | ipv4 quad => exact Nat.lt_of_lt_of_le quad.lt (by decide)
  | ipv6 _ => exact BitVec.isLt _
  | mac spelled => exact Nat.lt_of_lt_of_le spelled.lt (by decide)

end Literal

namespace Command

variable {word line : String} {words : List String} {values : List Nat} {keys : List KeyMatch} {n : Nat}
  {k : KeyMatch} {verb : Verb} {operands : List String} {command : Command}

theorem value_lt (read : value word = .ok n) : n < valueBound := by
  unfold value at read
  cases literal : Literal.read word.toList with
  | ok v =>
    rw [literal] at read
    cases read
    exact Literal.read_lt literal
  | error fault =>
    rw [literal] at read
    cases read

theorem number_lt (read : number word = .ok n) : n < UInt32.size := by
  unfold number at read
  split at read
  case h_1 =>
    split at read
    case isTrue below =>
      cases read
      exact below
    case isFalse => cases read
  case h_2 => cases read

theorem key_writable (read : key word = .ok k) : k.Writable := by
  unfold key at read
  dsimp only at read
  split at read
  case h_1 =>
    obtain ⟨v, found, made⟩ := bind_eq_ok.mp read
    cases made
    exact value_lt found
  case h_2 =>
    split at read
    case h_1 => cases read
    case h_2 prefixLen short =>
      obtain ⟨v, found, made⟩ := bind_eq_ok.mp read
      cases made
      exact ⟨value_lt found, ((bounded?_eq_some_iff (by decide)).mp short).2⟩

theorem forall_of_mapM {α : Type} {P : α → Prop} {f : String → Except CommandFault α} {results : List α}
    (done : words.mapM f = .ok results) (each : ∀ w r, f w = .ok r → P r) : ∀ r ∈ results, P r := by
  intro r member
  obtain ⟨w, -, own⟩ := mem_of_mapM_eq_ok done r member
  exact each w r own

/-- Whatever is read from words has words for its names, and numbers that are not too wide. -/
theorem writable_of_ofOperands (areWords : ∀ w ∈ operands, IsWord w.toList)
    (read : ofOperands verb operands = .ok command) : command.Writable := by
  have values {words : List String} {args : List Nat} (read : words.mapM value = .ok args) :
      ∀ v ∈ args, v < valueBound :=
    forall_of_mapM read fun _ _ => value_lt
  have ports {words : List String} {args : List Nat} (read : words.mapM number = .ok args) :
      ∀ v ∈ args, v < UInt32.size :=
    forall_of_mapM read fun _ _ => number_lt
  unfold ofOperands at read
  split at read
  case h_1 table action words =>
    simp only [List.forall_mem_cons] at areWords
    obtain ⟨keys, keysRead, read⟩ := bind_eq_ok.mp read
    obtain ⟨args, argsRead, read⟩ := bind_eq_ok.mp read
    cases read
    exact ⟨⟨areWords.1, areWords.2.1⟩, forall_of_mapM keysRead fun _ _ => key_writable, values argsRead⟩
  case h_2 table handle =>
    simp only [List.forall_mem_cons] at areWords
    obtain ⟨handle, handleRead, read⟩ := bind_eq_ok.mp read
    cases read
    exact ⟨areWords.1, number_lt handleRead⟩
  case h_3 table action handle words =>
    simp only [List.forall_mem_cons] at areWords
    obtain ⟨handle, handleRead, read⟩ := bind_eq_ok.mp read
    obtain ⟨args, argsRead, read⟩ := bind_eq_ok.mp read
    cases read
    exact ⟨⟨areWords.1, areWords.2.1⟩, number_lt handleRead, values argsRead⟩
  case h_4 table action words =>
    simp only [List.forall_mem_cons] at areWords
    obtain ⟨args, argsRead, read⟩ := bind_eq_ok.mp read
    cases read
    exact ⟨⟨areWords.1, areWords.2.1⟩, values argsRead⟩
  case h_5 table =>
    cases read
    exact areWords table List.mem_cons_self
  case h_6 group | h_7 group | h_10 handle =>
    obtain ⟨number, numberRead, read⟩ := bind_eq_ok.mp read
    cases read
    exact number_lt numberRead
  case h_8 rid words =>
    obtain ⟨rid, -, read⟩ := bind_eq_ok.mp read
    split at read
    case isTrue narrow =>
      obtain ⟨given, portsRead, read⟩ := bind_eq_ok.mp read
      cases read
      exact ⟨narrow, ports portsRead⟩
    case isFalse => cases read
  case h_9 handle words =>
    obtain ⟨handle, handleRead, read⟩ := bind_eq_ok.mp read
    obtain ⟨given, portsRead, read⟩ := bind_eq_ok.mp read
    cases read
    exact ⟨number_lt handleRead, ports portsRead⟩
  case h_11 group handle | h_12 group handle =>
    obtain ⟨group, groupRead, read⟩ := bind_eq_ok.mp read
    obtain ⟨handle, handleRead, read⟩ := bind_eq_ok.mp read
    cases read
    exact ⟨number_lt groupRead, number_lt handleRead⟩
  case h_13 => cases read

/-- A command that was read can be written. -/
theorem writable_of_ofLine (read : ofLine line = .ok command) : command.Writable := by
  have areWords : ∀ w ∈ (Text.words line.toList).map String.ofList, IsWord w.toList := by
    refine List.forall_mem_map.mpr fun word member => ?_
    rw [String.toList_ofList]
    exact isWord_of_mem_words member
  unfold ofLine at read
  generalize (Text.words line.toList).map String.ofList = words at read areWords
  cases found : ofWords words with
  | error fault =>
    rw [found] at read
    cases read
  | ok other =>
    rw [found] at read
    cases read
    unfold ofWords at found
    split at found
    case h_1 => cases found
    case h_2 word operands =>
      split at found
      case h_1 verb =>
        exact writable_of_ofOperands (fun w member => areWords w (List.mem_cons_of_mem _ member)) found
      case h_2 => cases found

end Command

namespace ControlPlane

variable {plane after : ControlPlane} {words : List String} {command : Command} {answer : Option Nat}

/-- A line is carried out as the command that is read from it. -/
theorem runLine_of_read {line : String} (read : Command.ofLine line = .ok command) (plane : ControlPlane) :
    runLine line plane = run command plane := by
  rw [runLine, read]
  rfl

/-- A line with a command is carried out. -/
theorem runLine_of_words (areWords : ∀ w ∈ words, Text.IsWord w.toList)
    (read : Command.ofWords words = .ok command) (done : run command plane = .ok answer after) :
    runLine (commandRow words) plane = .ok answer after := by
  have line : Command.ofLine (commandRow words) = .ok command := by
    rw [Command.ofLine_commandRow areWords, read]
    rfl
  rwa [runLine_of_read line]

/-- So is a line on which a command is written. -/
theorem runLine_of_written (written : Command.Written (Numeral.Spells 10) words command)
    (done : run command plane = .ok answer after) :
    runLine (commandRow words) plane = .ok answer after :=
  runLine_of_words written.isWord written.ofWords_eq done

end ControlPlane

end Switchyard
