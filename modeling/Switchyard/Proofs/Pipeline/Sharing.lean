import Mathlib.Data.List.Nodup
import Switchyard.Proofs.Pipeline.DropPort

/-!
# Pipelines that share a numbering

Pipelines are built and process frames in any order, all on one numbering. The frames are packets number
0, 1, 2, … in the order in which they come, those included that are refused, so no two frames are the
same packet. The pipelines take control ports in the order in which they are built, and where a program
does not declare what it must, none is taken. The ports differ as long as there are ports; every pipeline
after that gets the last one again, until the counter of 32 bits starts over.
-/

namespace Switchyard

open Packet Sequencing

/-- Controls that leave the numbers of packets alone. -/
def Controls.KeepIds (controls : Controls) : Prop :=
  ∀ tables pkt, (controls.ingress tables pkt).1.id = pkt.id ∧
    (controls.egress tables pkt).1.id = pkt.id

namespace Pipeline

/-! ## Requests -/

/-- What a pipeline is built from. -/
structure Plan where
  program : Program
  controls : Controls
  config : PipelineConfig

/-- The pipeline that is built, if the program declares what it must. -/
def Plan.pipeline (plan : Plan) (controlPort : Nat) : Except PipelineError Pipeline :=
  (StandardFields.ofLayout plan.program.layout).map fun fields =>
    { config := plan.config
      boundary := Boundary.standard plan.config.maxFrame
      program := plan.program
      controls := plan.controls
      fields
      controlPort
      plane := ⟨plan.program.tables, Multicast.empty⟩ }

/-- A frame that comes to a pipeline, whatever commands have made of the pipeline since it was built. -/
structure Arrival where
  pipeline : Pipeline
  frame : Frame
  port : Nat
  now : Time

/-- What becomes of the frame as packet number `id`. -/
def Arrival.outcome (arrival : Arrival) (id : Nat) : Except PipelineError Outcome :=
  arrival.pipeline.outcome id arrival.frame arrival.port arrival.now

/-- What is asked of a numbering. -/
inductive Request where
  | build (plan : Plan)
  | process (arrival : Arrival)

/-- What comes of it. -/
inductive Answer where
  | built (result : Except PipelineError Pipeline)
  | processed (result : Except PipelineError Outcome)

/-- Carries out an operation, and tells whether it failed. -/
def attempt {ε α : Type} (op : EStateM ε Numbering α) : NumberingM (Except ε α) := fun s =>
  match op s with
  | .ok a after => (.ok a, after)
  | .error e after => (.error e, after)

/-- Answers a request. -/
def Request.answer : Request → NumberingM Answer
  | .build plan => .built <$> attempt (new plan.program plan.controls plan.config)
  | .process a => .processed <$> attempt (a.pipeline.process a.frame a.port a.now)

/-- Answers requests one after another. -/
def answerAll (requests : List Request) : NumberingM (List Answer) := requests.mapM Request.answer

/-- The answer where the next packet has number `id` and the next control port is `port`. -/
def Request.answerWith (id port : Nat) : Request → Answer
  | .build plan => .built (plan.pipeline port)
  | .process arrival => .processed (arrival.outcome id)

def Request.arrival? : Request → Option Arrival
  | .build _ => none
  | .process arrival => some arrival

/-- Does the request take a control port? -/
def Request.takesPort : Request → Bool
  | .build plan => (StandardFields.ofLayout plan.program.layout).isOk
  | .process _ => false

def Answer.outcome? : Answer → Option (Except PipelineError Outcome)
  | .built _ => none
  | .processed result => some result

def Answer.controlPort? : Answer → Option Nat
  | .built result => result.toOption.map (·.controlPort)
  | .processed _ => none

/-- The frames that come, in order. -/
def arrivals (requests : List Request) : List Arrival := requests.filterMap (·.arrival?)

/-- What became of the frames, in order. -/
def outcomes (answers : List Answer) : List (Except PipelineError Outcome) :=
  answers.filterMap (·.outcome?)

/-- The control ports of the pipelines that have been built, in order. -/
def controlPorts (answers : List Answer) : List Nat := answers.filterMap (·.controlPort?)

/-! ## One request -/

/-- Building a pipeline takes a control port only if the program declares what it must. -/
theorem answer_build (plan : Plan) (s : Numbering) :
    (Request.build plan).answer s = (.built (plan.pipeline (Numbering.portNumber s.nextControlPort)),
      if (Request.build plan).takesPort then
        { s with nextControlPort := (s.nextControlPort + 1) % UInt32.size }
      else s) := by
  show (Answer.built (attempt (new plan.program plan.controls plan.config) s).1,
      (attempt (new plan.program plan.controls plan.config) s).2) =
    (_, if (StandardFields.ofLayout plan.program.layout).isOk then _ else s)
  unfold attempt new Plan.pipeline
  cases StandardFields.ofLayout plan.program.layout with
  | ok fields => rfl
  | error e => rfl

/-- Processing a frame takes a packet number, whatever becomes of the frame. -/
theorem answer_process (arrival : Arrival) (s : Numbering) :
    (Request.process arrival).answer s =
      (.processed (arrival.outcome s.nextPacket), { s with nextPacket := s.nextPacket + 1 }) := by
  show (Answer.processed (attempt (arrival.pipeline.process _ _ _) s).1,
    (attempt (arrival.pipeline.process _ _ _) s).2) = _
  unfold attempt
  rw [process_eq, Arrival.outcome]
  cases arrival.pipeline.outcome s.nextPacket arrival.frame arrival.port arrival.now with
  | ok outcome => rfl
  | error e => rfl

theorem answerAll_cons (request : Request) (requests : List Request) (s : Numbering) :
    answerAll (request :: requests) s =
      ((request.answer s).1 :: (answerAll requests (request.answer s).2).1,
        (answerAll requests (request.answer s).2).2) := by
  rw [answerAll, List.mapM_cons]
  rfl

/-! ## All requests -/

theorem length_arrivals_cons (request : Request) (requests : List Request) :
    (arrivals (request :: requests)).length =
      request.arrival?.toList.length + (arrivals requests).length := by
  cases request with
  | build plan => simp [arrivals, Request.arrival?]
  | process arrival => simp [arrivals, Request.arrival?, Nat.add_comm]

theorem countP_takesPort_cons (request : Request) (requests : List Request) :
    (request :: requests).countP (·.takesPort) =
      request.takesPort.toNat + requests.countP (·.takesPort) := by
  rw [List.countP_cons, Nat.add_comm]
  cases request.takesPort <;> rfl

/-- A request is answered with the next numbers, and takes the one that it needs. -/
theorem answer_eq (request : Request) (k count : Nat) :
    request.answer ⟨k, count % UInt32.size⟩ =
      (request.answerWith k (Numbering.portNumber (count % UInt32.size)),
        ⟨k + request.arrival?.toList.length, (count + request.takesPort.toNat) % UInt32.size⟩) := by
  cases request with
  | build plan =>
    rw [answer_build]
    cases (Request.build plan).takesPort with
    | true => simp [Request.answerWith, Request.arrival?]
    | false => simp [Request.answerWith, Request.arrival?]
  | process arrival =>
    rw [answer_process]
    simp [Request.answerWith, Request.arrival?, Request.takesPort]

/-- Every request is answered with the numbers that the requests before it have left. -/
theorem answerAll_eq (requests : List Request) (k count : Nat) :
    answerAll requests ⟨k, count % UInt32.size⟩ =
      (requests.mapIdx fun i request => request.answerWith (k + (arrivals (requests.take i)).length)
          (Numbering.portNumber ((count + (requests.take i).countP (·.takesPort)) % UInt32.size)),
        ⟨k + (arrivals requests).length,
          (count + requests.countP (·.takesPort)) % UInt32.size⟩) := by
  induction requests generalizing k count with
  | nil => rfl
  | cons request requests ih =>
    rw [answerAll_cons, answer_eq, ih, List.mapIdx_cons]
    -- What the first request takes is counted before every other request.
    simp only [List.take_succ_cons, length_arrivals_cons, countP_takesPort_cons, Nat.add_assoc]
    rfl

/-- The frames are numbered in the order in which they come. -/
theorem outcomes_answerAll (requests : List Request) (s : Numbering) :
    outcomes (answerAll requests s).1 =
      ((arrivals requests).zipIdx s.nextPacket).map fun (arrival, k) => arrival.outcome k := by
  induction requests generalizing s with
  | nil => rfl
  | cons request requests ih =>
    rw [answerAll_cons]
    cases request with
    | build plan =>
      rw [answer_build]
      show outcomes (answerAll requests _).1 = _
      rw [ih]
      split <;> rfl
    | process arrival =>
      rw [answer_process]
      show arrival.outcome s.nextPacket :: outcomes (answerAll requests _).1 = _
      rw [ih]
      rfl

/-- A request that takes a port is answered with a pipeline that has it. -/
theorem controlPort?_answerWith (request : Request) (k port : Nat) :
    (request.answerWith k port).controlPort? = if request.takesPort then some port else none := by
  cases request with
  | build plan =>
    show (plan.pipeline port).toOption.map _ =
      if (StandardFields.ofLayout plan.program.layout).isOk then _ else _
    unfold Plan.pipeline
    cases StandardFields.ofLayout plan.program.layout with
    | ok fields => rfl
    | error e => rfl
  | process arrival => rfl

/-- The control ports are given out in the order in which the pipelines are built. -/
theorem controlPorts_answerAll (requests : List Request) (k count : Nat) :
    controlPorts (answerAll requests ⟨k, count % UInt32.size⟩).1 =
      (List.range' count (requests.countP (·.takesPort))).map fun n =>
        Numbering.portNumber (n % UInt32.size) := by
  induction requests generalizing k count with
  | nil => rfl
  | cons request requests ih =>
    have others := ih (k + request.arrival?.toList.length) (count + request.takesPort.toNat)
    rw [controlPorts] at others
    rw [answerAll_cons, answer_eq, countP_takesPort_cons, controlPorts, List.filterMap_cons,
      controlPort?_answerWith, others]
    cases request.takesPort with
    | true =>
      rw [Bool.toNat_true, Nat.add_comm 1, List.range'_succ]
      rfl
    | false =>
      rw [Bool.toNat_false, Nat.zero_add]
      rfl

/-- As long as there are ports, counting on gives another one; after that it gives the last again. -/
theorem nodup_portNumbers {base : Nat} (small : base ≤ Numbering.maxControlPort) (n : Nat) :
    ((List.range' base n).map fun count => Numbering.portNumber (count % UInt32.size)).Nodup ↔
      base + n ≤ Numbering.maxControlPort + 1 := by
  have below : Numbering.maxControlPort + 1 < UInt32.size := by decide
  constructor
  · intro distinct
    by_contra many
    -- The last port and the count behind it are both given out, as the same port.
    have last : Numbering.maxControlPort ∈ List.range' base n := by
      rw [List.mem_range'_1]
      omega
    have beyond : Numbering.maxControlPort + 1 ∈ List.range' base n := by
      rw [List.mem_range'_1]
      omega
    exact absurd (List.inj_on_of_nodup_map distinct last beyond rfl) (by decide)
  · intro few
    refine List.Nodup.map_on ?_ List.nodup_range'
    intro i hi j hj same
    rw [List.mem_range'_1] at hi hj
    have fits : ∀ count, count < base + n → Numbering.portNumber (count % UInt32.size) = count := by
      intro count inside
      rw [Nat.mod_eq_of_lt (by omega), Numbering.portNumber, Nat.min_eq_left (by omega)]
    rwa [fits i hi.2, fits j hj.2] at same

/-! ## Frames that leave -/

variable {p : Pipeline} {frame : Frame} {now : Time} {id port : Nat}

theorem id_afterIngress (keep : p.controls.KeepIds) (id : Nat) (frame : Frame) (port : Nat)
    (now : Time) : (p.afterIngress id frame port now).id = id := by
  have prepared := p.prepare_edits port now (Packet.new id port frame.toBytes p.program.layout)
  have parsed := prepared.descends.trans (p.parse_descends _)
  exact (keep p.plane.tables _).1.trans parsed.id

theorem id_egress (keep : p.controls.KeepIds) (length : Nat) (now : Time) (queued : Queued) :
    (p.egress length now queued).1.id = queued.packet.id := by
  have shown := (((setOptional_edits p.fields.egressTime now.toNat queued.packet).set
    p.fields.egressPort queued.port).set p.fields.egressSpec (p.config.dropPort + 1)).set
    p.fields.packetLength length
  exact (keep p.plane.tables _).2.trans shown.descends.id

/-- What leaves for a copy has the number of the packet. -/
theorem uid_of_depart {queued : Queued} {departure : Departure} (keep : p.controls.KeepIds)
    (done : p.depart frame now queued = .ok departure) :
    ∀ e ∈ departure.emission, e.frame.uid = queued.packet.id := by
  intro e sent
  unfold depart at done
  dsimp only at done
  split at done
  case isTrue =>
    cases done
    cases sent
  case isFalse =>
    obtain ⟨out, written, done⟩ := bind_eq_ok.mp done
    cases done
    cases sent
    exact (Program.id_of_deparse written).trans (id_egress keep _ _ _)

/-- What leaves for a frame has the number of the packet that the frame became. -/
theorem uid_of_outcome {outcome : Outcome} (keep : p.controls.KeepIds)
    (done : p.outcome id frame port now = .ok outcome) :
    ∀ e ∈ outcome.emissions, e.frame.uid = id := by
  intro e sent
  obtain ⟨pkt, entered, done⟩ := bind_eq_ok.mp done
  obtain ⟨departures, departed, done⟩ := bind_eq_ok.mp done
  cases done
  obtain ⟨departure, there, leaves⟩ := List.mem_filterMap.mp sent
  obtain ⟨queued, member, own⟩ := mem_of_mapM_eq_ok departed departure there
  unfold Boundary.enter at entered
  split at entered
  case isTrue => cases entered
  case isFalse =>
    cases entered
    exact (uid_of_depart keep own e leaves).trans
      ((descends_of_mem_queue member).id.trans (id_afterIngress keep id frame port now))

/-! ## All numbers -/

/-- However pipelines are built and frames processed on a numbering, the frames are packets number 0, 1,
2, … in the order in which they come, and what leaves carries the number; the pipelines that are built
have the next control ports in order, but every count after the last port stands for the last port again,
until the counter starts over. So the control ports differ exactly if there are enough of them. -/
theorem shared_numbers {base : Nat} (small : base ≤ Numbering.maxControlPort)
    (requests : List Request) :
    let answers := (answerAll requests (.startingAt base)).1
    let after := (answerAll requests (.startingAt base)).2
    let built := requests.countP (·.takesPort)
    answers = requests.mapIdx (fun i request =>
      request.answerWith (arrivals (requests.take i)).length
        (Numbering.portNumber ((base + (requests.take i).countP (·.takesPort)) % UInt32.size))) ∧
    outcomes answers = (arrivals requests).zipIdx.map (fun (arrival, k) => arrival.outcome k) ∧
    after.packets = (arrivals requests).length ∧
    (∀ (k : Nat) (arrival : Arrival) (outcome : Outcome), (arrivals requests)[k]? = some arrival →
      (outcomes answers)[k]? = some (.ok outcome) → arrival.pipeline.controls.KeepIds →
      ∀ e ∈ outcome.emissions, e.frame.uid = k) ∧
    controlPorts answers = (List.range' base built).map (fun count =>
      Numbering.portNumber (count % UInt32.size)) ∧
    ((controlPorts answers).Nodup ↔ base + built ≤ Numbering.maxControlPort + 1) := by
  intro answers after built
  have below : base < UInt32.size := Nat.lt_of_le_of_lt small (by decide)
  have start : Numbering.startingAt base = ⟨0, base % UInt32.size⟩ := by
    rw [Nat.mod_eq_of_lt below, Numbering.startingAt]
  have run := answerAll_eq requests 0 base
  have ports := controlPorts_answerAll requests 0 base
  have frames := outcomes_answerAll requests (.startingAt base)
  simp only [Nat.zero_add, ← start] at run ports
  refine ⟨congrArg Prod.fst run, frames, ?_, ?_, ports, ?_⟩
  · exact congrArg (·.2.packets) run
  · intro k arrival outcome comes answered keep
    have own : (outcomes answers)[k]? = some (arrival.outcome k) := by
      rw [frames, List.getElem?_map, List.getElem?_zipIdx, comes]
      simp [Numbering.startingAt]
    rw [own] at answered
    exact uid_of_outcome keep (Option.some.inj answered)
  · rw [ports]
    exact nodup_portNumbers small built

/-- Building a pipeline, a frame, a program that declares nothing, a frame that is too long, and building
another pipeline, for pipelines that take frames of at most 2 bytes. -/
def mixedRequests (plan : Plan) (p : Pipeline) : List Request :=
  [.build plan, .process ⟨p, Frame.ofBytes 7 [1, 2], 9, .zero⟩,
    .build { plan with program := { plan.program with layout := Layout.empty } },
    .process ⟨p, Frame.ofBytes 7 [1, 2, 3], 9, .zero⟩, .build plan]

theorem skip_keepIds : Controls.skip.KeepIds := fun _ _ => ⟨rfl, rfl⟩

/-- Where one port is left, two pipelines share it. The frame that is not too long leaves by port 0, and with
the number 0 instead of its own. -/
theorem shared_numbers_last_port :
    ∃ program p after, Program.load hub = .ok program ∧
      let config := { PipelineConfig.default with maxFrame := 2 }
      let requests := mixedRequests ⟨program, Controls.skip, config⟩ p
      let answers := (answerAll requests (.startingAt 65535)).1
      new program Controls.skip config .initial = .ok p after ∧
      65535 ≤ Numbering.maxControlPort ∧
      outcomes answers =
        [p.outcome 0 (Frame.ofBytes 7 [1, 2]) 9 .zero, .error (.frameTooLarge 3 2)] ∧
      (∃ outcome, (outcomes answers)[0]? = some (.ok outcome) ∧
        outcome.emissions.map (·.port) = [0] ∧ ∀ e ∈ outcome.emissions, e.frame.uid = 0) ∧
      controlPorts answers = [65535, 65535] ∧ ¬ (controlPorts answers).Nodup := by
  refine ⟨_, _, _, rfl, rfl, by decide, ?_⟩
  obtain ⟨-, frames, -, numbered, ports, distinct⟩ :=
    shared_numbers (Nat.le_refl Numbering.maxControlPort) (mixedRequests _ _)
  refine ⟨frames, ⟨_, rfl, rfl, numbered 0 _ _ rfl rfl skip_keepIds⟩, ports, ?_⟩
  intro differ
  exact absurd (distinct.mp differ) (by decide)

end Pipeline

end Switchyard
