import Mathlib.Data.List.Forall2
import Switchyard.Proofs.Frame.Canonical
import Switchyard.Proofs.Frame.Recovery

/-!
# Rules in order

Rules of recovery can be any: they may enable one another for ever, read nothing, or spoil what is known
before they give up. As long as none takes more bytes than there are, recovery ends all the same, since every
header takes a byte. `Reads` says what it does without saying how: each header is the one that the first rule
in order reads that can go on, where all rules are tried in the state that the headers before have left. There
is one way to read on until no rule can, and recovery finds it.
-/

namespace Switchyard

namespace RecoveryRule

/-- The rule takes no more bytes than there are. -/
def Within (rule : RecoveryRule) : Prop := ∀ bs s r, rule.decode bs s = some r → r.used ≤ bs.length

/-- Can the rule go on? It must apply and read a header of at least one byte. -/
def continues (rule : RecoveryRule) (s : RecoveryState) (bs : Bytes) : Bool :=
  rule.applies s && (rule.read bs s).1.any fun (_, used) => 0 < used

/-- The rules apply alike, and what one of them reads with at least one byte, the other reads too. What they
make of the state in other attempts is their own affair. -/
structure ReadsLike (rule other : RecoveryRule) : Prop where
  applies : rule.applies = other.applies
  reads : ∀ bs s header used next, 0 < used →
    (rule.read bs s = (some (header, used), next) ↔ other.read bs s = (some (header, used), next))

variable {rule other : RecoveryRule} {s : RecoveryState} {bs : Bytes} {r : Recovered}

theorem decode_eq_some_iff :
    rule.decode bs s = some r ↔ rule.read bs s = (some (r.header, r.used), r.next) := by
  unfold decode
  split
  case h_1 header used next read =>
    rw [read, Option.some.injEq, Prod.mk.injEq, Option.some.injEq, Prod.mk.injEq]
    constructor
    · rintro rfl
      exact ⟨⟨rfl, rfl⟩, rfl⟩
    · rintro ⟨⟨rfl, rfl⟩, rfl⟩
      rfl
  case h_2 next read =>
    rw [read]
    constructor <;> intro absurd <;> cases absurd

theorem Lossless.within (lossless : rule.Lossless) : rule.Within := fun bs s r decoded =>
  (lossless bs s r decoded).1

theorem continues_of_read (read : rule.read bs s = (some (r.header, r.used), r.next)) :
    rule.continues s bs = (rule.applies s && decide (0 < r.used)) := by
  rw [continues, read, Option.any_some]

/-- An attempt finds what the rule reads if it can go on. -/
theorem attempt?_eq_some_iff (within : rule.Within) : rule.attempt? s bs = some r ↔
    rule.continues s bs = true ∧ rule.read bs s = (some (r.header, r.used), r.next) := by
  rw [attempt?]
  constructor
  · intro attempted
    split at attempted
    case isTrue applies =>
      obtain ⟨decoded, taken⟩ := Option.filter_eq_some_iff.mp attempted
      have read := decode_eq_some_iff.mp decoded
      rw [Bool.and_eq_true] at taken
      exact ⟨by rw [continues_of_read read, applies, taken.1, Bool.and_self], read⟩
    case isFalse => contradiction
  · rintro ⟨goesOn, read⟩
    rw [continues_of_read read, Bool.and_eq_true, decide_eq_true_iff] at goesOn
    have decoded := decode_eq_some_iff.mpr read
    exact attempt?_eq_some goesOn.1 decoded goesOn.2 (within bs s r decoded)

theorem attempt?_eq_none_iff (within : rule.Within) :
    rule.attempt? s bs = none ↔ rule.continues s bs = false := by
  rw [← Bool.not_eq_true, ← Option.not_isSome_iff_eq_none, not_iff_not, Option.isSome_iff_exists]
  constructor
  · rintro ⟨r, attempted⟩
    exact ((attempt?_eq_some_iff within).mp attempted).1
  · intro goesOn
    have reads := goesOn
    rw [continues, Bool.and_eq_true, Option.any_eq_true] at reads
    obtain ⟨-, ⟨header, used⟩, found, -⟩ := reads
    exact ⟨⟨header, used, (rule.read bs s).2⟩,
      (attempt?_eq_some_iff within).mpr ⟨goesOn, Prod.ext found rfl⟩⟩

/-- Rules that read alike attempt alike. -/
theorem ReadsLike.attempt? (alike : rule.ReadsLike other) (s : RecoveryState) (bs : Bytes) :
    rule.attempt? s bs = other.attempt? s bs := by
  unfold RecoveryRule.attempt?
  rw [alike.applies]
  split
  case isFalse => rfl
  case isTrue =>
    ext r
    rw [Option.filter_eq_some_iff, Option.filter_eq_some_iff, decode_eq_some_iff, decode_eq_some_iff]
    refine and_congr_left fun taken => ?_
    rw [Bool.and_eq_true, decide_eq_true_iff] at taken
    exact alike.reads bs s r.header r.used r.next taken.1

end RecoveryRule

namespace Recovery

/-- How far the bytes have been read, and what is known there. -/
structure Place where
  state : RecoveryState
  offset : Nat

/-- The first rule in order that can go on at a place. -/
def first? (rules : List RecoveryRule) (bytes : Bytes) (p : Place) : Option RecoveryRule :=
  rules.find? fun rule => rule.continues p.state (bytes.drop p.offset)

/-- The headers that are read from one place up to another: each by the first rule that can go on, which is
given the bytes that are left and what was known before any rule was tried. -/
inductive Reads (rules : List RecoveryRule) (bytes : Bytes) : Place → List Header → Place → Prop where
  | done (p : Place) : Reads rules bytes p [] p
  | read {p q : Place} {rule : RecoveryRule} {header : Header} {used : Nat} {next : RecoveryState}
      {headers : List Header} (first : first? rules bytes p = some rule)
      (found : rule.read (bytes.drop p.offset) p.state = (some (header, used), next))
      (rest : Reads rules bytes ⟨next, p.offset + used⟩ headers q) :
      Reads rules bytes p (header :: headers) q

variable {rules others : List RecoveryRule} {bytes : Bytes} {p q last : Place} {headers : List Header}

/-! ## Reading on -/

theorem first?_eq_none_iff : first? rules bytes p = none ↔
    ∀ rule ∈ rules, rule.continues p.state (bytes.drop p.offset) = false := by
  simp [first?, List.find?_eq_none]

/-- The first rule takes at least one byte. -/
theorem used_of_first? {rule : RecoveryRule} {header : Header} {used : Nat} {next : RecoveryState}
    (first : first? rules bytes p = some rule)
    (found : rule.read (bytes.drop p.offset) p.state = (some (header, used), next)) : 0 < used := by
  have goesOn := List.find?_some first
  rw [RecoveryRule.continues_of_read (r := ⟨header, used, next⟩) found, Bool.and_eq_true] at goesOn
  exact of_decide_eq_true goesOn.2

/-- Every header takes a byte. -/
theorem Reads.offset_add_length_le (reads : Reads rules bytes p headers q) :
    p.offset + headers.length ≤ q.offset := by
  induction reads with
  | done p => exact Nat.le_refl _
  | read first found _ ih =>
    have taken := used_of_first? first found
    rw [List.length_cons]
    dsimp only at ih
    omega

/-- There is one way to read on until no rule can. -/
theorem Reads.unique (reads : Reads rules bytes p headers q) (stop : first? rules bytes q = none)
    {headers' : List Header} {q' : Place} (reads' : Reads rules bytes p headers' q')
    (stop' : first? rules bytes q' = none) : headers' = headers ∧ q' = q := by
  induction reads generalizing headers' with
  | done p =>
    cases reads' with
    | done => exact ⟨rfl, rfl⟩
    | read first => rw [stop] at first; contradiction
  | read first found _ ih =>
    cases reads' with
    | done => rw [stop'] at first; contradiction
    | read first' found' rest' =>
      rw [first] at first'
      obtain rfl := Option.some.inj first'
      rw [found] at found'
      cases found'
      obtain ⟨rfl, rfl⟩ := ih stop rest'
      exact ⟨rfl, rfl⟩

section

variable (within : ∀ rule ∈ rules, rule.Within)
include within

/-- A step of recovery is what the first rule reads. -/
theorem step?_eq_some_iff {r : Recovered} : step? rules p.state (bytes.drop p.offset) = some r ↔
    ∃ rule, first? rules bytes p = some rule ∧
      rule.read (bytes.drop p.offset) p.state = (some (r.header, r.used), r.next) := by
  rw [step?, List.findSome?_eq_some_iff]
  constructor
  · rintro ⟨before, rule, after, rfl, attempted, idle⟩
    have own := within rule (by simp)
    obtain ⟨goesOn, read⟩ := (RecoveryRule.attempt?_eq_some_iff own).mp attempted
    refine ⟨rule, List.find?_eq_some_iff_append.mpr ⟨goesOn, before, after, rfl, ?_⟩, read⟩
    intro other earlier
    have idle := (RecoveryRule.attempt?_eq_none_iff (within other (by simp [earlier]))).mp
      (idle other earlier)
    simp [idle]
  · rintro ⟨rule, first, read⟩
    obtain ⟨goesOn, before, after, rfl, idle⟩ := List.find?_eq_some_iff_append.mp first
    have own := within rule (by simp)
    refine ⟨before, rule, after, rfl, (RecoveryRule.attempt?_eq_some_iff own).mpr ⟨goesOn, read⟩, ?_⟩
    intro other earlier
    refine (RecoveryRule.attempt?_eq_none_iff (within other (by simp [earlier]))).mpr ?_
    simpa using idle other earlier

theorem step?_eq_none_iff :
    step? rules p.state (bytes.drop p.offset) = none ↔ first? rules bytes p = none := by
  rw [step?, List.findSome?_eq_none_iff, first?_eq_none_iff]
  exact forall₂_congr fun rule member => RecoveryRule.attempt?_eq_none_iff (within rule member)

/-- A run reads on from a place until no rule can, and leaves the bytes behind that. -/
theorem exists_reads (s : RecoveryState) {offset : Nat} (inside : offset ≤ bytes.length) :
    ∃ last, Reads rules bytes ⟨s, offset⟩ (run rules s (bytes.drop offset)).1 last ∧
      (run rules s (bytes.drop offset)).2 = bytes.drop last.offset ∧
      last.offset ≤ bytes.length ∧ first? rules bytes last = none := by
  generalize behind : bytes.drop offset = left
  -- The bytes left get fewer with every header, as in the run itself.
  fun_induction run rules s left generalizing offset with
  | case1 s left stop =>
    subst behind
    exact ⟨⟨s, offset⟩, .done _, rfl, inside, (step?_eq_none_iff within (p := ⟨s, offset⟩)).mp stop⟩
  | case2 s left r read headers payload rest ih =>
    subst behind
    obtain ⟨rule, first, found⟩ := (step?_eq_some_iff within (p := ⟨s, offset⟩)).mp read
    have used := (used_of_step? read).2
    rw [List.length_drop] at used
    have room : offset + r.used ≤ bytes.length := by omega
    obtain ⟨last, reads, left, further, stop⟩ := ih room (by rw [List.drop_drop])
    rw [rest] at reads left
    exact ⟨last, .read first found reads, left, further, stop⟩

end

/-- Rules that read alike recover alike. -/
theorem run_congr (alike : List.Forall₂ RecoveryRule.ReadsLike rules others) (s : RecoveryState)
    (bs : Bytes) : run rules s bs = run others s bs := by
  have steps : ∀ s bs, step? rules s bs = step? others s bs := by
    intro s bs
    unfold step?
    induction alike with
    | nil => rfl
    | cons own _ ih => rw [List.findSome?_cons, List.findSome?_cons, own.attempt?, ih]
  fun_induction run rules s bs with
  | case1 s bs stop => rw [run_of_none ((steps s bs).symm.trans stop)]
  | case2 s bs r read headers payload rest ih =>
    rw [run_of_some ((steps s bs).symm.trans read), ← ih, rest]

end Recovery

namespace Boundary

open Recovery

/-- Recovery by any rules, if none takes more bytes than there are. It comes to an end, with no more headers than
there are bytes. Each header is the one that the first rule reads that applies and takes at least one byte,
at the place that the headers before it have led to; at the last place no rule can go on, and the payload is
all that is left there. There is no other way to read the bytes by the rules. What a rule does to the state
when it takes nothing is forgotten: rules that differ in that only recover the same frame. -/
theorem recover_in_rule_order (b : Boundary) (within : ∀ rule ∈ b.rules, rule.Within) (uid : Nat)
    (bytes : Bytes) : ∃ headers last,
    b.recover uid bytes = Frame.new uid headers (.bytes (bytes.drop last.offset)) ∧
      Reads b.rules bytes ⟨.initial, 0⟩ headers last ∧
      (∀ rule ∈ b.rules, rule.continues last.state (bytes.drop last.offset) = false) ∧
      headers.length ≤ last.offset ∧ last.offset ≤ bytes.length ∧
      (∀ headers' last', Reads b.rules bytes ⟨.initial, 0⟩ headers' last' →
        (∀ rule ∈ b.rules, rule.continues last'.state (bytes.drop last'.offset) = false) →
        headers' = headers ∧ last' = last) ∧
      ∀ others, List.Forall₂ RecoveryRule.ReadsLike b.rules others →
        Boundary.recover { b with rules := others } uid bytes = b.recover uid bytes := by
  obtain ⟨last, reads, payload, inside, stop⟩ := exists_reads within .initial (Nat.zero_le bytes.length)
  have headers := reads.offset_add_length_le
  rw [Nat.zero_add] at headers
  refine ⟨_, last, ?_, reads, first?_eq_none_iff.mp stop, headers, inside, ?_, ?_⟩
  · rw [← payload]
    rfl
  · intro headers' last' reads' stop'
    exact reads.unique stop reads' (first?_eq_none_iff.mpr stop')
  · intro others alike
    rw [Boundary.recover, Boundary.recover, Frame.recover, Frame.recover, run_congr alike]

/-- A rule that reads nothing and says nothing. -/
def quiet : RecoveryRule := ⟨"quiet", fun _ => true, fun _ s => (none, s)⟩

/-- A rule that reads nothing, but says that a transport header has been read. -/
def spoiling : RecoveryRule :=
  ⟨"spoiling", fun _ => true, fun _ s => (none, s.afterTransport)⟩

/-- A rule that reads Ethernet headers behind Ethernet headers, for ever. -/
def endless : RecoveryRule :=
  ⟨"endless", fun s => s.layer == .link, RecoveryRule.reading RecoveryRule.decodeEthernet⟩

/-- Rules that are no help, before one that enables itself. -/
def unruly : Boundary := ⟨9000, [spoiling, .zero, .ethernet, .innerEthernet, endless]⟩

/-- Thirty bytes have room for two Ethernet headers. The second one is read behind the first, and not behind a
transport header that nobody has read. -/
theorem recover_in_rule_order_unruly :
    (∀ rule ∈ unruly.rules, rule.Within) ∧
      (unruly.recover 1 (List.replicate 30 0)).chain = ["ethernet", "ethernet"] ∧
      (unruly.recover 1 (List.replicate 30 0)).payload = .bytes [0, 0] ∧
      Boundary.recover { unruly with rules := quiet :: unruly.rules.tail } 1 (List.replicate 30 0) =
        unruly.recover 1 (List.replicate 30 0) := by
  have within : ∀ rule ∈ unruly.rules, rule.Within := by
    have reading : RecoveryRule.ethernet.Within := RecoveryRule.ethernet_lossless.within
    intro rule member bs s r decoded
    simp only [unruly, List.mem_cons, List.mem_nil_iff, or_false] at member
    rcases member with rfl | rfl | rfl | rfl | rfl
    · cases decoded
    · rw [RecoveryRule.zero, RecoveryRule.decode_reading, Option.map_eq_some_iff] at decoded
      obtain ⟨_, -, rfl⟩ := decoded
      exact Nat.zero_le _
    all_goals exact reading bs s r decoded
  have alike : List.Forall₂ RecoveryRule.ReadsLike unruly.rules (quiet :: unruly.rules.tail) := by
    refine .cons ⟨rfl, fun bs s header used next _ => ?_⟩ ?_
    · constructor <;> intro absurd <;> cases absurd
    · exact List.forall₂_same.mpr fun rule _ => ⟨rfl, fun _ _ _ _ _ _ => Iff.rfl⟩
  have read : Reads unruly.rules (List.replicate 30 0) ⟨.initial, 0⟩ _ _ :=
    .read rfl rfl (.read rfl rfl (.done _))
  obtain ⟨headers, last, frame, -, -, -, -, unique, forgotten⟩ :=
    recover_in_rule_order unruly within 1 (List.replicate 30 0)
  obtain ⟨rfl, rfl⟩ := unique _ _ read (by decide)
  refine ⟨within, ?_, ?_, forgotten _ alike⟩
  · rw [frame]
    rfl
  · rw [frame]
    rfl

end Boundary

end Switchyard
