import Switchyard.Proofs.Control.Literals

/-!
# The syntax of commands

A command is written as a line of words: a verb and its operands, where numbers may have any form of a value
literal, and words are apart by blanks. Whatever line a command is written as, that command is read from it;
and every command can be written whose names are words and whose numbers are not too wide. How the length of
a prefix is spelled is a parameter of the syntax, because it is a decimal numeral and not a value literal.
-/

namespace Switchyard

open Numeral Text Sequencing

/-- The word is a value literal for a number below a bound. -/
def Operand (bound : Nat) (word : String) (n : Nat) : Prop :=
  Literal.Form Spells word.toList n ∧ n < bound

/-- The word is a key: a value, or a value and the length of a prefix behind a slash. -/
inductive KeyMatch.Written (length : List Char → Nat → Prop) : String → KeyMatch → Prop where
  | exact {word : String} {v : Nat} (value : Operand valueBound word v) : Written length word (.exact v)
  | lpm {word lengthWord : String} {v len : Nat} (value : Operand valueBound word v)
      (size : length lengthWord.toList len) (short : len < UInt16.size) :
      Written length (word ++ "/" ++ lengthWord) (.lpm v len)

/-- A value has 128 bits, and the length of a prefix has 16. -/
def KeyMatch.Writable : KeyMatch → Prop
  | exact v => v < valueBound
  | lpm v len => v < valueBound ∧ len < UInt16.size

namespace Command

/-- The words are a command. Names are words; the arrow stands before the arguments of a new entry, and may
stand before those of a modified one. -/
inductive Written (length : List Char → Nat → Prop) : List String → Command → Prop where
  | tableAdd {table action : String} {keyWords argWords : List String} {keys : List KeyMatch}
      {args : List Nat} (tableName : IsWord table.toList) (actionName : IsWord action.toList)
      (keysWritten : List.Forall₂ (KeyMatch.Written length) keyWords keys)
      (argsWritten : List.Forall₂ (Operand valueBound) argWords args) :
      Written length ("table_add" :: table :: action :: (keyWords ++ "=>" :: argWords))
        (.tableAdd table action keys args)
  | tableDelete {table word : String} {handle : Nat} (tableName : IsWord table.toList)
      (number : Operand UInt32.size word handle) :
      Written length ["table_delete", table, word] (.tableDelete table handle)
  | tableModify {table action word : String} {argWords separator : List String} {handle : Nat}
      {args : List Nat} (tableName : IsWord table.toList) (actionName : IsWord action.toList)
      (number : Operand UInt32.size word handle) (optional : separator = [] ∨ separator = ["=>"])
      (argsWritten : List.Forall₂ (Operand valueBound) argWords args) :
      Written length ("table_modify" :: table :: action :: word :: (separator ++ argWords))
        (.tableModify table action handle args)
  | tableSetDefault {table action : String} {argWords : List String} {args : List Nat}
      (tableName : IsWord table.toList) (actionName : IsWord action.toList)
      (argsWritten : List.Forall₂ (Operand valueBound) argWords args) :
      Written length ("table_set_default" :: table :: action :: argWords)
        (.tableSetDefault table action args)
  | tableClear {table : String} (tableName : IsWord table.toList) :
      Written length ["table_clear", table] (.tableClear table)
  | groupCreate {word : String} {group : Nat} (number : Operand UInt32.size word group) :
      Written length ["mc_mgrp_create", word] (.groupCreate group)
  | groupDestroy {word : String} {group : Nat} (number : Operand UInt32.size word group) :
      Written length ["mc_mgrp_destroy", word] (.groupDestroy group)
  | nodeCreate {word : String} {portWords : List String} {rid : Nat} {ports : List Nat}
      (number : Operand UInt16.size word rid)
      (portsWritten : List.Forall₂ (Operand UInt32.size) portWords ports) :
      Written length ("mc_node_create" :: word :: portWords) (.nodeCreate rid ports)
  | nodeUpdate {word : String} {portWords : List String} {handle : Nat} {ports : List Nat}
      (number : Operand UInt32.size word handle)
      (portsWritten : List.Forall₂ (Operand UInt32.size) portWords ports) :
      Written length ("mc_node_update" :: word :: portWords) (.nodeUpdate handle ports)
  | nodeDestroy {word : String} {handle : Nat} (number : Operand UInt32.size word handle) :
      Written length ["mc_node_destroy", word] (.nodeDestroy handle)
  | nodeAssociate {groupWord word : String} {group handle : Nat}
      (first : Operand UInt32.size groupWord group) (second : Operand UInt32.size word handle) :
      Written length ["mc_node_associate", groupWord, word] (.nodeAssociate group handle)
  | nodeDissociate {groupWord word : String} {group handle : Nat}
      (first : Operand UInt32.size groupWord group) (second : Operand UInt32.size word handle) :
      Written length ["mc_node_dissociate", groupWord, word] (.nodeDissociate group handle)

end Command

/-! ## Operands -/

theorem IsAddressChar.solid {c : Char} (spells : IsAddressChar c) : isBlank c = false := by
  rcases spells with digit | rfl | rfl
  · obtain ⟨d, taken⟩ := Option.isSome_iff_exists.mp digit
    exact ((digit?_eq_some_iff (Nat.le_refl _)).mp taken).not_isBlank (Nat.le_refl _)
  · decide
  · decide

section Operands

variable {bound n : Nat} {word : String} {k : KeyMatch}

theorem Operand.chars (operand : Operand bound word n) :
    ∀ c ∈ word.toList, isBlank c = false ∧ c ≠ '/' ∧ c ≠ '=' := by
  intro c member
  rcases operand.1.chars c member with address | rfl | rfl
  · have other (d : Char) (not : ¬IsAddressChar d) : c ≠ d := fun same => not (same ▸ address)
    exact ⟨address.solid, other '/' (by decide), other '=' (by decide)⟩
  · decide
  · decide

theorem Operand.isWord (operand : Operand bound word n) : IsWord word.toList :=
  ⟨operand.1.ne_nil, fun c member => (operand.chars c member).1⟩

theorem Operand.ne_arrow (operand : Operand bound word n) : word ≠ Command.arrow := by
  rintro rfl
  exact (operand.chars '=' (by decide)).2.2 rfl

theorem Operand.read (operand : Operand bound word n) : Literal.read word.toList = .ok n :=
  Literal.read_eq_ok_iff.mpr operand.1.signed

theorem Operand.value (operand : Operand valueBound word n) : Command.value word = .ok n := by
  rw [Command.value, operand.read]
  rfl

theorem Operand.number (operand : Operand UInt32.size word n) : Command.number word = .ok n := by
  rw [Command.number, operand.read]
  exact if_pos operand.2

theorem Operand.mono {larger : Nat} (operand : Operand bound word n) (order : bound ≤ larger) :
    Operand larger word n :=
  ⟨operand.1, Nat.lt_of_lt_of_le operand.2 order⟩

theorem toList_lpm (word lengthWord : String) :
    (word ++ "/" ++ lengthWord).toList = word.toList ++ '/' :: lengthWord.toList := by
  have slash : "/".toList = ['/'] := rfl
  simp [slash]

theorem KeyMatch.Written.isWord (written : KeyMatch.Written (Spells 10) word k) : IsWord word.toList := by
  cases written with
  | exact value => exact value.isWord
  | @lpm word lengthWord v len value size short =>
    rw [toList_lpm]
    refine ⟨by simp, List.forall_mem_append.mpr ⟨value.isWord.solid, List.forall_mem_cons.mpr ⟨by decide, ?_⟩⟩⟩
    intro c member
    exact (size.isAddressChar (by decide) c member).solid

theorem KeyMatch.Written.ne_arrow (written : KeyMatch.Written (Spells 10) word k) :
    word ≠ Command.arrow := by
  cases written with
  | exact value => exact value.ne_arrow
  | @lpm word lengthWord v len value size short =>
    intro same
    have slash : '/' ∈ (word ++ "/" ++ lengthWord).toList := by
      rw [toList_lpm]
      simp
    rw [same] at slash
    exact absurd slash (by decide)

theorem KeyMatch.Written.key (written : KeyMatch.Written (Spells 10) word k) :
    Command.key word = .ok k := by
  have front {word : String} {v : Nat} (value : Operand valueBound word v) :
      ∀ c ∈ word.toList, (c != '/') = true := by
    intro c member
    simpa using (value.chars c member).2.1
  cases written with
  | exact value =>
    have none : word.toList.dropWhile (· != '/') = [] := by
      rw [← List.append_nil word.toList, List.dropWhile_append_of_pos (front value)]
      rfl
    unfold Command.key
    simp only [none, value.value]
    rfl
  | @lpm word lengthWord v len value size short =>
    have behind : (word.toList ++ '/' :: lengthWord.toList).dropWhile (· != '/') =
        '/' :: lengthWord.toList := by
      rw [List.dropWhile_append_of_pos (front value)]
      rfl
    have before : (word.toList ++ '/' :: lengthWord.toList).takeWhile (· != '/') = word.toList := by
      rw [List.takeWhile_append_of_pos (front value)]
      exact List.append_nil _
    have lengthRead : bounded? 10 UInt16.size lengthWord.toList = some len :=
      (bounded?_eq_some_iff (by decide)).mpr ⟨size.signed, short⟩
    unfold Command.key
    simp only [toList_lpm, behind, before, lengthRead, String.ofList_toList, value.value]
    rfl

theorem toList_toString_nat (n : Nat) : (toString n).toList = Nat.toDigits 10 n := by simp

theorem spells_toString (n : Nat) : Spells 10 (toString n).toList n := by
  rw [toList_toString_nat]
  exact spells_toDigits (by decide) n

/-- A number can be written in decimal. -/
theorem operand_toString (below : n < bound) (wide : bound ≤ valueBound) : Operand bound (toString n) n :=
  ⟨.number (.decimal (spells_toString n)) (Nat.lt_of_lt_of_le below wide), below⟩

end Operands

/-! ## Commands -/

namespace Command

variable {length : List Char → Nat → Prop} {words keyWords argWords : List String} {command : Command}
  {keys : List KeyMatch} {args : List Nat} {bound : Nat}

theorem forall_isWord (each : List.Forall₂ (Operand bound) argWords args) :
    ∀ w ∈ argWords, IsWord w.toList := by
  intro w member
  obtain ⟨n, -, operand⟩ := (exists_of_forall₂ each).1 w member
  exact operand.isWord

theorem forall_isWord_keys (each : List.Forall₂ (KeyMatch.Written (Spells 10)) keyWords keys) :
    ∀ w ∈ keyWords, IsWord w.toList := by
  intro w member
  obtain ⟨k, -, written⟩ := (exists_of_forall₂ each).1 w member
  exact written.isWord

theorem mapM_value (each : List.Forall₂ (Operand valueBound) argWords args) :
    argWords.mapM value = .ok args :=
  mapM_eq_ok_of_forall₂ (each.imp fun _ _ operand => operand.value)

theorem mapM_number (each : List.Forall₂ (Operand UInt32.size) argWords args) :
    argWords.mapM number = .ok args :=
  mapM_eq_ok_of_forall₂ (each.imp fun _ _ operand => operand.number)

theorem mapM_key (each : List.Forall₂ (KeyMatch.Written (Spells 10)) keyWords keys) :
    keyWords.mapM key = .ok keys :=
  mapM_eq_ok_of_forall₂ (each.imp fun _ _ written => written.key)

/-- The keys of an entry are the words before the arrow. -/
theorem split_at_arrow (each : List.Forall₂ (KeyMatch.Written (Spells 10)) keyWords keys)
    (argWords : List String) :
    (keyWords ++ arrow :: argWords).takeWhile (· != arrow) = keyWords ∧
      afterArrow (keyWords ++ arrow :: argWords) = argWords := by
  have front : ∀ w ∈ keyWords, (w != arrow) = true := by
    intro w member
    obtain ⟨k, -, written⟩ := (exists_of_forall₂ each).1 w member
    simpa using written.ne_arrow
  constructor
  · rw [List.takeWhile_append_of_pos front, List.takeWhile_cons_of_neg (by simp), List.append_nil]
  · rw [afterArrow, List.dropWhile_append_of_pos front, List.dropWhile_cons_of_neg (by simp)]
    rfl

/-- The arguments of a modified entry stand behind the arrow, or there is no arrow. -/
theorem drop_optional {separator : List String} (optional : separator = [] ∨ separator = [arrow])
    (each : List.Forall₂ (Operand valueBound) argWords args) :
    (if (separator ++ argWords).head? = some arrow then (separator ++ argWords).drop 1
      else separator ++ argWords) = argWords := by
  rcases optional with rfl | rfl
  · rw [List.nil_append, if_neg]
    intro first
    obtain ⟨n, -, operand⟩ := (exists_of_forall₂ each).1 arrow (List.mem_of_head? first)
    exact operand.ne_arrow rfl
  · exact if_pos rfl

theorem ofWords_cons (verb : Verb) {word : String} (found : Verb.ofWord? word = some verb)
    (operands : List String) : ofWords (word :: operands) = ofOperands verb operands := by
  rw [ofWords, found]

/-- A command is read from its words. -/
theorem Written.ofWords_eq (written : Written (Spells 10) words command) :
    ofWords words = .ok command := by
  cases written with
  | @tableAdd table action keyWords argWords keys args tableName actionName keysWritten argsWritten =>
    obtain ⟨before, behind⟩ := split_at_arrow keysWritten argWords
    show ofWords ("table_add" :: table :: action :: (keyWords ++ arrow :: argWords)) = _
    rw [ofWords_cons .tableAdd (by decide)]
    simp only [ofOperands, before, behind, mapM_key keysWritten, mapM_value argsWritten]
    rfl
  | tableDelete tableName number =>
    rw [ofWords_cons .tableDelete (by decide)]
    simp only [ofOperands, number.number]
    rfl
  | tableModify tableName actionName number optional argsWritten =>
    rw [ofWords_cons .tableModify (by decide)]
    simp only [ofOperands, number.number, drop_optional optional argsWritten, mapM_value argsWritten]
    rfl
  | tableSetDefault tableName actionName argsWritten =>
    rw [ofWords_cons .tableSetDefault (by decide)]
    simp only [ofOperands, mapM_value argsWritten]
    rfl
  | tableClear tableName =>
    rw [ofWords_cons .tableClear (by decide)]
    rfl
  | groupCreate number =>
    rw [ofWords_cons .groupCreate (by decide)]
    simp only [ofOperands, number.number]
    rfl
  | groupDestroy number =>
    rw [ofWords_cons .groupDestroy (by decide)]
    simp only [ofOperands, number.number]
    rfl
  | @nodeCreate word portWords rid ports number portsWritten =>
    have wide := number.mono (show UInt16.size ≤ UInt32.size by decide)
    have narrow : rid < UInt16.size := number.2
    rw [ofWords_cons .nodeCreate (by decide)]
    simp only [ofOperands, wide.number, mapM_number portsWritten]
    show (if rid < UInt16.size then _ else _) = _
    rw [if_pos narrow]
    rfl
  | nodeUpdate number portsWritten =>
    rw [ofWords_cons .nodeUpdate (by decide)]
    simp only [ofOperands, number.number, mapM_number portsWritten]
    rfl
  | nodeDestroy number =>
    rw [ofWords_cons .nodeDestroy (by decide)]
    simp only [ofOperands, number.number]
    rfl
  | nodeAssociate first second =>
    rw [ofWords_cons .nodeAssociate (by decide)]
    simp only [ofOperands, first.number, second.number]
    rfl
  | nodeDissociate first second =>
    rw [ofWords_cons .nodeDissociate (by decide)]
    simp only [ofOperands, first.number, second.number]
    rfl

/-- The words of a command are words. -/
theorem Written.isWord (written : Written (Spells 10) words command) : ∀ w ∈ words, IsWord w.toList := by
  have verb (v : Verb) : IsWord v.word.toList := by cases v <;> exact isWord_of_all (by decide)
  have arrowWord : IsWord arrow.toList := isWord_of_all (by decide)
  cases written with
  | tableAdd tableName actionName keysWritten argsWritten =>
    have all := List.forall_mem_append.mpr ⟨forall_isWord_keys keysWritten,
      List.forall_mem_cons.mpr ⟨arrowWord, forall_isWord argsWritten⟩⟩
    simp only [List.forall_mem_cons]
    exact ⟨verb .tableAdd, tableName, actionName, all⟩
  | tableDelete tableName number =>
    simp only [List.forall_mem_cons]
    exact ⟨verb .tableDelete, tableName, number.isWord, List.forall_mem_nil _⟩
  | @tableModify table action word argWords separator handle args tableName actionName number optional
      argsWritten =>
    have before : ∀ w ∈ separator, IsWord w.toList := by
      rcases optional with rfl | rfl
      · exact List.forall_mem_nil _
      · exact List.forall_mem_singleton.mpr arrowWord
    simp only [List.forall_mem_cons, List.forall_mem_append]
    exact ⟨verb .tableModify, tableName, actionName, number.isWord, before, forall_isWord argsWritten⟩
  | tableSetDefault tableName actionName argsWritten =>
    simp only [List.forall_mem_cons]
    exact ⟨verb .tableSetDefault, tableName, actionName, forall_isWord argsWritten⟩
  | tableClear tableName =>
    simp only [List.forall_mem_cons]
    exact ⟨verb .tableClear, tableName, List.forall_mem_nil _⟩
  | groupCreate number =>
    simp only [List.forall_mem_cons]
    exact ⟨verb .groupCreate, number.isWord, List.forall_mem_nil _⟩
  | groupDestroy number =>
    simp only [List.forall_mem_cons]
    exact ⟨verb .groupDestroy, number.isWord, List.forall_mem_nil _⟩
  | nodeCreate number portsWritten =>
    simp only [List.forall_mem_cons]
    exact ⟨verb .nodeCreate, number.isWord, forall_isWord portsWritten⟩
  | nodeUpdate number portsWritten =>
    simp only [List.forall_mem_cons]
    exact ⟨verb .nodeUpdate, number.isWord, forall_isWord portsWritten⟩
  | nodeDestroy number =>
    simp only [List.forall_mem_cons]
    exact ⟨verb .nodeDestroy, number.isWord, List.forall_mem_nil _⟩
  | nodeAssociate first second =>
    simp only [List.forall_mem_cons]
    exact ⟨verb .nodeAssociate, first.isWord, second.isWord, List.forall_mem_nil _⟩
  | nodeDissociate first second =>
    simp only [List.forall_mem_cons]
    exact ⟨verb .nodeDissociate, first.isWord, second.isWord, List.forall_mem_nil _⟩

/-- So it is read from every line on which its words stand. -/
theorem Written.ofLine_eq (written : Written (Spells 10) words command) {line : String}
    (spaced : Spaced (words.map String.toList) line.toList) : ofLine line = .ok command := by
  have areWords : ∀ w ∈ words.map String.toList, IsWord w := List.forall_mem_map.mpr written.isWord
  have same : (words.map String.toList).map String.ofList = words := by simp
  rw [ofLine, words_of_spaced spaced areWords, same, written.ofWords_eq]
  rfl

/-! ## Every command can be written -/

/-- Names are words, and numbers are not too wide. -/
def Writable : Command → Prop
  | tableAdd table action keys args =>
    (IsWord table.toList ∧ IsWord action.toList) ∧ (∀ k ∈ keys, k.Writable) ∧ ∀ v ∈ args, v < valueBound
  | tableDelete table handle => IsWord table.toList ∧ handle < UInt32.size
  | tableModify table action handle args =>
    (IsWord table.toList ∧ IsWord action.toList) ∧ handle < UInt32.size ∧ ∀ v ∈ args, v < valueBound
  | tableSetDefault table action args =>
    (IsWord table.toList ∧ IsWord action.toList) ∧ ∀ v ∈ args, v < valueBound
  | tableClear table => IsWord table.toList
  | groupCreate group => group < UInt32.size
  | groupDestroy group => group < UInt32.size
  | nodeCreate rid ports => rid < UInt16.size ∧ ∀ port ∈ ports, port < UInt32.size
  | nodeUpdate handle ports => handle < UInt32.size ∧ ∀ port ∈ ports, port < UInt32.size
  | nodeDestroy handle => handle < UInt32.size
  | nodeAssociate group handle => group < UInt32.size ∧ handle < UInt32.size
  | nodeDissociate group handle => group < UInt32.size ∧ handle < UInt32.size

theorem operands_toString (below : ∀ n ∈ args, n < bound) (wide : bound ≤ valueBound) :
    List.Forall₂ (Operand bound) (args.map toString) args := by
  induction args with
  | nil => exact .nil
  | cons n args ih =>
    obtain ⟨own, others⟩ := List.forall_mem_cons.mp below
    exact .cons (operand_toString own wide) (ih others)

theorem exists_written_keys (writable : ∀ k ∈ keys, k.Writable) :
    ∃ words, List.Forall₂ (KeyMatch.Written (Spells 10)) words keys := by
  induction keys with
  | nil => exact ⟨[], .nil⟩
  | cons k keys ih =>
    obtain ⟨own, others⟩ := List.forall_mem_cons.mp writable
    obtain ⟨words, written⟩ := ih others
    cases k with
    | exact v => exact ⟨_, .cons (.exact (operand_toString own (Nat.le_refl _))) written⟩
    | lpm v len =>
      have value : Operand valueBound (toString v) v := operand_toString own.1 (Nat.le_refl _)
      exact ⟨_, .cons (.lpm value (spells_toString len) own.2) written⟩

theorem Writable.exists_written (writable : command.Writable) :
    ∃ words, Written (Spells 10) words command := by
  have values {ns : List Nat} (below : ∀ v ∈ ns, v < valueBound) := operands_toString below (Nat.le_refl _)
  have ports {ns : List Nat} (below : ∀ v ∈ ns, v < UInt32.size) := operands_toString below (by decide)
  have number {n : Nat} (below : n < UInt32.size) := operand_toString below (by decide)
  cases command with
  | tableAdd table action keys args =>
    obtain ⟨⟨tableName, actionName⟩, keys, args⟩ := writable
    obtain ⟨words, written⟩ := exists_written_keys keys
    exact ⟨_, .tableAdd tableName actionName written (values args)⟩
  | tableDelete table handle => exact ⟨_, .tableDelete writable.1 (number writable.2)⟩
  | tableModify table action handle args =>
    obtain ⟨⟨tableName, actionName⟩, handle, args⟩ := writable
    exact ⟨_, .tableModify tableName actionName (number handle) (.inl rfl) (values args)⟩
  | tableSetDefault table action args =>
    exact ⟨_, .tableSetDefault writable.1.1 writable.1.2 (values writable.2)⟩
  | tableClear table => exact ⟨_, .tableClear writable⟩
  | groupCreate group => exact ⟨_, .groupCreate (number writable)⟩
  | groupDestroy group => exact ⟨_, .groupDestroy (number writable)⟩
  | nodeCreate rid ports' => exact ⟨_, .nodeCreate (operand_toString writable.1 (by decide)) (ports writable.2)⟩
  | nodeUpdate handle ports' => exact ⟨_, .nodeUpdate (number writable.1) (ports writable.2)⟩
  | nodeDestroy handle => exact ⟨_, .nodeDestroy (number writable)⟩
  | nodeAssociate group handle => exact ⟨_, .nodeAssociate (number writable.1) (number writable.2)⟩
  | nodeDissociate group handle => exact ⟨_, .nodeDissociate (number writable.1) (number writable.2)⟩

theorem below_of_operands (each : List.Forall₂ (Operand bound) argWords args) : ∀ n ∈ args, n < bound := by
  intro n member
  obtain ⟨word, -, operand⟩ := (exists_of_forall₂ each).2 n member
  exact operand.2

theorem Written.writable (written : Written (Spells 10) words command) : command.Writable := by
  cases written with
  | tableAdd tableName actionName keysWritten argsWritten =>
    refine ⟨⟨tableName, actionName⟩, fun k member => ?_, below_of_operands argsWritten⟩
    obtain ⟨word, -, own⟩ := (exists_of_forall₂ keysWritten).2 k member
    cases own with
    | exact value => exact value.2
    | lpm value _ short => exact ⟨value.2, short⟩
  | tableDelete tableName number => exact ⟨tableName, number.2⟩
  | tableModify tableName actionName number _ argsWritten =>
    exact ⟨⟨tableName, actionName⟩, number.2, below_of_operands argsWritten⟩
  | tableSetDefault tableName actionName argsWritten =>
    exact ⟨⟨tableName, actionName⟩, below_of_operands argsWritten⟩
  | tableClear tableName => exact tableName
  | groupCreate number => exact number.2
  | groupDestroy number => exact number.2
  | nodeCreate number portsWritten => exact ⟨number.2, below_of_operands portsWritten⟩
  | nodeUpdate number portsWritten => exact ⟨number.2, below_of_operands portsWritten⟩
  | nodeDestroy number => exact number.2
  | nodeAssociate first second => exact ⟨first.2, second.2⟩
  | nodeDissociate first second => exact ⟨first.2, second.2⟩

/-- Reading undoes writing. The commands that can be written are those whose names are words and whose
numbers are not too wide; a command is read from every line on which its words stand, however its numbers are
spelled, as long as the lengths of prefixes are decimal; and whatever a line is, a command is read from it,
or it is refused with an error that holds the line. -/
theorem reads_what_is_written :
    (∀ words command line, Written (Spells 10) words command →
      Spaced (words.map String.toList) line.toList → ofLine line = .ok command) ∧
    (∀ command : Command, command.Writable ↔ ∃ words, Written (Spells 10) words command) ∧
    ∀ line, (∃ command, ofLine line = .ok command) ∨
      ∃ fault, ofLine line = .error (.badCommand line fault) := by
  refine ⟨fun words command line written spaced => written.ofLine_eq spaced,
    fun command => ⟨Writable.exists_written, fun ⟨words, written⟩ => written.writable⟩, fun line => ?_⟩
  unfold ofLine
  cases ofWords ((Text.words line.toList).map String.ofList) with
  | ok command => exact .inl ⟨command, rfl⟩
  | error fault => exact .inr ⟨fault, rfl⟩

/-- A line with several blanks, a tab, and numbers in several spellings. -/
theorem reads_what_is_written_spaced :
    ofLine "\ttable_modify acl  permit 0x0A 007 " = .ok (.tableModify "acl" "permit" 10 [7]) := by
  have zero (radix : Nat) (positional : 0 < radix) : Spells radix ['0'] 0 := .single ⟨positional, .inl rfl⟩
  have digitTen : IsDigit 16 'A' 10 := ⟨by decide, .inr (by decide)⟩
  have digitZero : IsDigit 10 '0' 0 := ⟨by decide, .inl rfl⟩
  have digitSeven : IsDigit 10 '7' 7 := ⟨by decide, .inl rfl⟩
  have ten : Spells 16 "0A".toList 10 := Spells.concat (zero 16 (by decide)) digitTen
  have zeros : Spells 10 "00".toList 0 := Spells.concat (zero 10 (by decide)) digitZero
  have seven : Spells 10 "007".toList 7 := Spells.concat zeros digitSeven
  have handle : Operand UInt32.size "0x0A" 10 := ⟨.number (.hex (.inl rfl) ten) (by decide), by decide⟩
  have arg : Operand valueBound "007" 7 := ⟨.number (.decimal seven) (by decide), by decide⟩
  have written : Written (Spells 10) ["table_modify", "acl", "permit", "0x0A", "007"]
      (.tableModify "acl" "permit" 10 [7]) :=
    .tableModify (isWord_of_all (by decide)) (isWord_of_all (by decide)) handle (.inl rfl) (.cons arg .nil)
  have blank : isBlank ' ' = true := by decide
  have one : ∀ c ∈ [' '], isBlank c = true := List.forall_mem_singleton.mpr blank
  have two : ∀ c ∈ [' ', ' '], isBlank c = true := List.forall_mem_cons.mpr ⟨blank, one⟩
  have tab : ∀ c ∈ ['\t'], isBlank c = true := List.forall_mem_singleton.mpr (by decide)
  have apart (rest : List Char) : ∀ c ∈ (' ' :: rest).head?, isBlank c = true := by
    rintro c ⟨rfl⟩
    exact blank
  have spaced : Spaced (["table_modify", "acl", "permit", "0x0A", "007"].map String.toList)
      "\ttable_modify acl  permit 0x0A 007 ".toList :=
    .cons tab (.cons one (.cons two (.cons one (.cons one (.nil one) (apart _)) (apart _)) (apart _))
      (apart _)) (apart _)
  exact reads_what_is_written.1 _ _ _ written spaced

/-- The length of a prefix is no value literal: in hexadecimal it is refused. -/
theorem reads_no_hexadecimal_length :
    Written (Literal.IsNumber Spells) ["table_add", "t", "a", "1/0x8", "=>", "1"]
      (.tableAdd "t" "a" [.lpm 1 8] [1]) ∧
    Spaced (["table_add", "t", "a", "1/0x8", "=>", "1"].map String.toList)
      "table_add t a 1/0x8 => 1".toList ∧
    ofLine "table_add t a 1/0x8 => 1" =
      .error (.badCommand "table_add t a 1/0x8 => 1" (.prefixLength "0x8")) := by
  have one : Operand valueBound "1" 1 :=
    ⟨.number (.decimal (.single ⟨by decide, .inl rfl⟩)) (by decide), by decide⟩
  have eight : Literal.IsNumber Spells "0x8".toList 8 :=
    .hex (.inl rfl) (.single ⟨by decide, .inl rfl⟩)
  have key : KeyMatch.Written (Literal.IsNumber Spells) "1/0x8" (.lpm 1 8) := .lpm one eight (by decide)
  have keys : List.Forall₂ (KeyMatch.Written (Literal.IsNumber Spells)) ["1/0x8"] [.lpm 1 8] :=
    .cons key .nil
  refine ⟨?_, spaced_row _, by decide +kernel⟩
  exact .tableAdd (isWord_of_all (by decide)) (isWord_of_all (by decide)) keys (.cons one .nil)

end Command

end Switchyard
