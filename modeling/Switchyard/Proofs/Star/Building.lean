import Switchyard.Proofs.Network.Conservation
import Switchyard.Proofs.Network.HostCounts
import Switchyard.Proofs.Star.Hosts

/-!
# Building a star

The network that building a star comes to: the switch, behind it the hosts in order, for each host a link up
to the switch and a link down from it, and an account for each host.
-/

namespace Switchyard

open Sequencing

/-- A port that is added comes last. -/
theorem Network.addPort_eq {net : Network} {id : NodeId} {n : Node} (found : net.node? id = some n)
    (link : LinkId) : net.addPort id link =
      { net with nodes := net.nodes.set id { n with ports := n.ports ++ [link] } } := by
  rw [addPort, found]
  rfl

namespace Star

variable {pipeline : Pipeline} {options : StarOptions} {net : Network} {i count : Nat}

/-- The node of a host. -/
def hostNode (options : StarOptions) (i : Nat) : Node :=
  ⟨hostName i, .host (hostIp i options.ipv6) (MacAddr.ofIndex (i + 1)), [2 * i], false⟩

/-- The switch with so many hosts. -/
def switchNode (pipeline : Pipeline) (count : Nat) : Node :=
  ⟨"s0", .switch pipeline .shared, (List.range count).map (2 * · + 1), false⟩

/-- The link from a host to the switch. -/
def uplink (options : StarOptions) (i : Nat) : Link :=
  Link.new (i + 1) 0 (i + 1) options.latency options.bandwidth

/-- The link from the switch to a host. -/
def downlink (options : StarOptions) (i : Nat) : Link :=
  Link.new 0 (i + 1) 1 options.latency options.bandwidth

def starNodes (pipeline : Pipeline) (options : StarOptions) (count : Nat) : List Node :=
  switchNode pipeline count :: (List.range count).map (hostNode options)

def starLinks (options : StarOptions) (count : Nat) : List Link :=
  (List.range count).flatMap fun i => [uplink options i, downlink options i]

/-- The accounts of the hosts, with nothing counted. -/
def accounts (count : Nat) : List (String × HostStats) :=
  (List.range count).foldl (fun hosts i => HostStats.update (hostName i) id hosts) []

/-- A network with nothing but a star with so many hosts, beside a numbering. -/
def starNetwork (pipeline : Pipeline) (options : StarOptions) (numbering : Numbering) (count : Nat) :
    Network :=
  { Network.empty with
    nodes := starNodes pipeline options count
    links := starLinks options count
    stats := { Stats.zero with hosts := accounts count }
    numbering := numbering }

/-- A host without a link. -/
def unwiredHost (options : StarOptions) (i : Nat) : Node := { hostNode options i with ports := [] }

/-- A star beside one more host, which is still without a link. -/
def unwiredNetwork (pipeline : Pipeline) (options : StarOptions) (numbering : Numbering) (count : Nat) :
    Network :=
  { starNetwork pipeline options numbering count with
    nodes := starNodes pipeline options count ++ [unwiredHost options count]
    stats := { Stats.zero with hosts := accounts (count + 1) } }

/-! ## The parts of a star -/

theorem getElem?_starNodes_host (inside : i < count) :
    (starNodes pipeline options count)[i + 1]? = some (hostNode options i) := by
  rw [starNodes, List.getElem?_cons_succ, List.getElem?_map, List.getElem?_range inside]
  rfl

theorem length_starNodes (pipeline : Pipeline) (options : StarOptions) (count : Nat) :
    (starNodes pipeline options count).length = count + 1 := by
  rw [starNodes, List.length_cons, List.length_map, List.length_range]

/-- With its links, a host is one of the star. -/
theorem starNodes_succ (pipeline : Pipeline) (options : StarOptions) (count : Nat) :
    starNodes pipeline options (count + 1) =
      ((starNodes pipeline options count ++ [unwiredHost options count]).set (count + 1)
        { unwiredHost options count with ports := [2 * count] }).set 0
          { switchNode pipeline count with
            ports := (switchNode pipeline count).ports ++ [2 * count + 1] } := by
  have length := length_starNodes pipeline options count
  have ports : (switchNode pipeline count).ports ++ [2 * count + 1] =
      (switchNode pipeline (count + 1)).ports := by
    simp [switchNode, List.range_succ]
  rw [List.set_append_right _ _ (by omega), length, Nat.sub_self, ports, starNodes, List.range_succ,
    List.map_append]
  rfl

theorem starLinks_succ (options : StarOptions) (count : Nat) : starLinks options (count + 1) =
    starLinks options count ++ [uplink options count, downlink options count] := by
  rw [starLinks, List.range_succ, List.flatMap_append]
  rfl

theorem length_starLinks (options : StarOptions) (count : Nat) :
    (starLinks options count).length = 2 * count := by
  induction count with
  | zero => rfl
  | succ count ih =>
    rw [starLinks_succ, List.length_append, ih]
    rfl

/-- The links of a host are next to each other. -/
theorem getElem?_starLinks (inside : i < count) :
    (starLinks options count)[2 * i]? = some (uplink options i) ∧
      (starLinks options count)[2 * i + 1]? = some (downlink options i) := by
  induction count with
  | zero => cases inside
  | succ count ih =>
    have length := length_starLinks options count
    rw [starLinks_succ]
    rcases Nat.lt_succ_iff_lt_or_eq.mp inside with before | rfl
    · obtain ⟨up, down⟩ := ih before
      rw [List.getElem?_append_left (by omega), List.getElem?_append_left (by omega)]
      exact ⟨up, down⟩
    · rw [List.getElem?_append_right (by omega), List.getElem?_append_right (by omega), length,
        Nat.sub_self, Nat.add_sub_cancel_left]
      exact ⟨rfl, rfl⟩

theorem accounts_succ (count : Nat) :
    accounts (count + 1) = HostStats.update (hostName count) id (accounts count) := by
  rw [accounts, List.range_succ, List.foldl_append]
  rfl

theorem ordered_accounts (count : Nat) : HostStats.Ordered (accounts count) := by
  induction count with
  | zero => exact .nil
  | succ count ih =>
    rw [accounts_succ]
    exact HostStats.ordered_update ih _ _

theorem lookup_accounts (i count : Nat) :
    (accounts count).lookup (hostName i) = if i < count then some HostStats.zero else none := by
  induction count generalizing i with
  | zero => rfl
  | succ count ih =>
    rw [accounts_succ, HostStats.lookup_update (ordered_accounts count), ih, ih, if_neg (Nat.lt_irrefl count)]
    simp only [hostName_inj]
    by_cases last : i = count
    · rw [if_pos last, if_pos (by omega)]
      rfl
    · rw [if_neg last]
      by_cases before : i < count
      · rw [if_pos before, if_pos (by omega)]
      · rw [if_neg before, if_neg (by omega)]

/-! ## Building it -/

section Build

variable (pipeline : Pipeline) (options : StarOptions) (numbering : Numbering)

/-- A host that has been added. -/
theorem networkAddHost_eq (count : Nat) :
    Network.addHost (hostName count) (hostIp count options.ipv6)
        (starNetwork pipeline options numbering count) =
      (count + 1, unwiredNetwork pipeline options numbering count) := by
  show ((starNodes pipeline options count).length, ({ starNetwork pipeline options numbering count with
    nodes := starNodes pipeline options count ++ [(⟨hostName count, .host (hostIp count options.ipv6)
      (MacAddr.ofIndex (starNodes pipeline options count).length), [], false⟩ : Node)]
    stats := ({ Stats.zero with hosts := accounts count } : Stats).onHost (hostName count) id } : Network)) = _
  rw [length_starNodes, unwiredNetwork, accounts_succ]
  rfl

/-- It gets the next two links, and the switch the next port. -/
theorem connect_eq (count : Nat) :
    Network.connect (count + 1) 0 options.latency options.bandwidth
        (unwiredNetwork pipeline options numbering count) =
      .ok (1, count + 1) (starNetwork pipeline options numbering (count + 1)) := by
  have length := length_starNodes pipeline options count
  have host : (starNodes pipeline options count ++ [unwiredHost options count])[count + 1]? =
      some (unwiredHost options count) := by
    rw [List.getElem?_append_right (by omega), length, Nat.sub_self]
    rfl
  have ports : (switchNode pipeline count).ports.length = count := by simp [switchNode]
  have links : starLinks options count ++
      [Link.new (count + 1) 0 ((switchNode pipeline count).ports.length + 1) options.latency
        options.bandwidth, downlink options count] = starLinks options (count + 1) := by
    rw [ports, starLinks_succ]
    rfl
  let linked : Network := { unwiredNetwork pipeline options numbering count with
    links := starLinks options (count + 1) }
  have wired : (linked.addPort (count + 1) (2 * count)).addPort 0 (2 * count + 1) =
      starNetwork pipeline options numbering (count + 1) := by
    rw [Network.addPort_eq (show linked.node? (count + 1) = some (unwiredHost options count) from host),
      Network.addPort_eq (n := switchNode pipeline count) rfl, starNetwork, starNodes_succ]
    rfl
  refine Network.connect_eq_ok.mpr
    ⟨unwiredHost options count, switchNode pipeline count, host, rfl, ?_, ?_⟩
  · rw [ports]
    rfl
  · show _ = (Network.addPort { unwiredNetwork pipeline options numbering count with
      links := starLinks options count ++ [Link.new (count + 1) 0
        ((switchNode pipeline count).ports.length + 1) options.latency options.bandwidth,
          downlink options count] } (count + 1) (starLinks options count).length).addPort 0
            ((starLinks options count).length + 1)
    rw [length_starLinks, links, wired]

/-- One more host, on the next port of the switch. -/
theorem addHost_eq (count : Nat) :
    addHost options 0 count (starNetwork pipeline options numbering count) =
      .ok (count + 1, count + 1) (starNetwork pipeline options numbering (count + 1)) := by
  have added : (modifyGet (Network.addHost (hostName count) (hostIp count options.ipv6)) :
      EStateM Fault Network NodeId) (starNetwork pipeline options numbering count) =
        .ok (count + 1) (unwiredNetwork pipeline options numbering count) := by
    show (match Network.addHost (hostName count) (hostIp count options.ipv6)
        (starNetwork pipeline options numbering count) with
      | (a, s) => (.ok a s : EStateM.Result Fault Network NodeId)) = _
    rw [networkAddHost_eq]
  have connected := connect_eq pipeline options numbering count
  exact state_bind_eq_ok.mpr ⟨_, _, added, state_bind_eq_ok.mpr ⟨_, _, connected, rfl⟩⟩

theorem mapM_addHost (count : Nat) :
    (List.range count).mapM (addHost options 0) (starNetwork pipeline options numbering 0) =
      .ok ((List.range count).map fun i => (i + 1, i + 1))
        (starNetwork pipeline options numbering count) := by
  induction count with
  | zero => rfl
  | succ count ih =>
    have last : [count].mapM (addHost options 0) (starNetwork pipeline options numbering count) =
        .ok [(count + 1, count + 1)] (starNetwork pipeline options numbering (count + 1)) := by
      rw [List.mapM_cons, state_bind_of_ok (addHost_eq pipeline options numbering count)]
      rfl
    rw [List.range_succ, List.mapM_append, state_bind_of_ok ih, state_bind_of_ok last,
      List.map_append]
    rfl

/-- Building succeeds if there is room for the addresses. -/
theorem build_eq (room : options.hosts ≤ maxHosts) :
    build pipeline options { Network.empty with numbering := numbering } =
      .ok ⟨0, (List.range options.hosts).map (· + 1), (List.range options.hosts).map (· + 1)⟩
        (starNetwork pipeline options numbering options.hosts) := by
  let net : Network := { Network.empty with numbering := numbering }
  have allowed : (MonadExcept.ofExcept (requireRoom options.hosts) : EStateM Fault Network Unit) net =
      .ok () net := by
    rw [requireRoom, if_neg (Nat.not_lt.mpr room)]
    rfl
  have switch : (modifyGet (Network.addSwitch "s0" pipeline) : EStateM Fault Network NodeId) net =
      .ok 0 (starNetwork pipeline options numbering 0) := rfl
  have hosts := mapM_addHost pipeline options numbering options.hosts
  refine state_bind_eq_ok.mpr ⟨_, _, allowed, state_bind_eq_ok.mpr ⟨_, _, switch,
    state_bind_eq_ok.mpr ⟨_, _, hosts, ?_⟩⟩⟩
  simp only [List.map_map]
  rfl

end Build

end Star

end Switchyard
