import Ners.Base.Fibers
import Ners.Base.Utf8
import Ners.Server.Shard

set_option autoImplicit false

namespace Ners.Server

open Fibers
open Utf8 (asBytes)

-- What read_dir on /sys/devices/system/node gives: nothing where it fails, and
-- an entry is nothing where reading it fails. File names are bytes; replacing
-- what is not UTF-8 in them neither makes nor breaks an ASCII prefix.
abbrev NodeListing := Option (List (Option Bytes))

def nodeCount (listing : NodeListing) : Nat :=
  max ((listing.map fun entries =>
    ((entries.filterMap id).filter fun fileName => (asBytes "node").isPrefixOf fileName).length).getD 1) 1

-- Rust checks the divisor of every division.
def divide (n divisor : Nat) : Except Fault Nat := if divisor = 0 then .error .panic else .ok (n / divisor)

def coreToNode (totalCores coresPerNode : Nat) : Except Fault (List Nat) :=
  (List.range totalCores).mapM fun core => divide core coresPerNode

def detectLinux (listing : NodeListing) (totalCores : Nat) : Except Fault NumaInfo := do
  let numNodes := nodeCount listing
  let coresPerNode ← divide totalCores numNodes
  let coreToNode ← coreToNode totalCores coresPerNode
  return ⟨numNodes, coresPerNode, totalCores, coreToNode⟩

def NumaInfo.coresInNode (numaInfo : NumaInfo) (node : Nat) : List Nat :=
  (numaInfo.coreToNode.zipIdx.filter fun entry => entry.1 == node).map Prod.snd

-- The map is there for each core, and the nodes share the cores out.
structure Shares (numaInfo : NumaInfo) (totalCores : Nat) : Prop where
  mapped : ∀ core, core < totalCores → ∃ node, node < numaInfo.numNodes ∧ numaInfo.coreToNode[core]? = some node ∧
    numaInfo.nodeForCore core = node
  disjoint : ∀ i j, i < numaInfo.numNodes → j < numaInfo.numNodes → i ≠ j →
    List.Disjoint (numaInfo.coresInNode i) (numaInfo.coresInNode j)
  once : ∀ core, ((List.range numaInfo.numNodes).flatMap numaInfo.coresInNode).count core = if core < totalCores then 1 else 0

theorem node_count_positive (listing : NodeListing) : 1 ≤ nodeCount listing := Nat.le_max_right _ _

theorem divide_ok (n divisor : Nat) (positive : 0 < divisor) : divide n divisor = .ok (n / divisor) :=
  if_neg (Nat.ne_of_gt positive)

theorem divide_all (cores : List Nat) (coresPerNode : Nat) (positive : 0 < coresPerNode) :
    (cores.mapM fun core => divide core coresPerNode) = .ok (cores.map (· / coresPerNode)) := by
  induction cores with
  | nil => rfl
  | cons core later ih =>
      rw [List.mapM_cons, divide_ok core coresPerNode positive, ih]
      rfl

-- The first core already meets the divisor.
theorem cores_panic (totalCores : Nat) (some : 1 ≤ totalCores) : coreToNode totalCores 0 = .error .panic := by
  obtain ⟨more, rfl⟩ := Nat.exists_eq_add_of_le' some
  rw [coreToNode, List.range_succ_eq_map, List.mapM_cons]
  rfl

theorem detect_crowded (listing : NodeListing) (totalCores : Nat) (some : 1 ≤ totalCores) (crowded : totalCores < nodeCount listing) :
    detectLinux listing totalCores = .error .panic := by
  have none : totalCores / nodeCount listing = 0 := Nat.div_eq_of_lt crowded
  rw [detectLinux, divide_ok totalCores _ (node_count_positive listing), none]
  change (coreToNode totalCores 0).bind _ = _
  rw [cores_panic totalCores some]
  rfl

def sharedOut (numNodes totalCores : Nat) : NumaInfo :=
  ⟨numNodes, totalCores / numNodes, totalCores, (List.range totalCores).map (· / (totalCores / numNodes))⟩

theorem detect_ok (listing : NodeListing) (totalCores : Nat) (roomy : nodeCount listing ≤ totalCores) :
    detectLinux listing totalCores = .ok (sharedOut (nodeCount listing) totalCores) := by
  have positive : 0 < totalCores / nodeCount listing := Nat.div_pos roomy (node_count_positive listing)
  have mapped : coreToNode totalCores (totalCores / nodeCount listing) = .ok ((List.range totalCores).map _) :=
    divide_all _ _ positive
  rw [detectLinux, divide_ok totalCores _ (node_count_positive listing)]
  change (coreToNode totalCores (totalCores / nodeCount listing)).bind _ = _
  rw [mapped]
  rfl

theorem shared_node (numNodes totalCores core node : Nat) :
    (sharedOut numNodes totalCores).coreToNode[core]? = some node ↔ core < totalCores ∧ core / (totalCores / numNodes) = node := by
  rw [sharedOut, List.getElem?_map]
  by_cases below : core < totalCores
  · rw [List.getElem?_range below, Option.map_some, Option.some.injEq]
    exact (and_iff_right below).symm
  · rw [List.getElem?_eq_none (by rw [List.length_range]; omega), Option.map_none]
    exact iff_of_false nofun fun within => below within.1

-- The last core is past the last node as soon as the division leaves a rest.
theorem nodes_within_iff (numNodes totalCores : Nat) (positive : 0 < totalCores / numNodes) :
    (∀ core, core < totalCores → core / (totalCores / numNodes) < numNodes) ↔ numNodes ∣ totalCores := by
  have parts := Nat.div_add_mod totalCores numNodes
  rw [Nat.dvd_iff_mod_eq_zero]
  constructor
  · intro within
    by_contra rest
    have last := within (numNodes * (totalCores / numNodes)) (by omega)
    rw [Nat.mul_div_cancel _ positive] at last
    exact Nat.lt_irrefl _ last
  · intro exactly core below
    refine (Nat.div_lt_iff_lt_mul positive).mpr ?_
    omega

theorem shares_iff (numNodes totalCores : Nat) (positive : 0 < totalCores / numNodes) :
    Shares (sharedOut numNodes totalCores) totalCores ↔ numNodes ∣ totalCores := by
  rw [← nodes_within_iff numNodes totalCores positive]
  constructor
  · intro shares core below
    obtain ⟨node, within, mapped, _⟩ := shares.mapped core below
    rw [((shared_node numNodes totalCores core node).mp mapped).2]
    exact within
  · intro within
    refine ⟨fun core below => ?_, fun i j _ _ differ => positions_disjoint _ i j differ, fun core => ?_⟩
    · have mapped := (shared_node numNodes totalCores core _).mpr ⟨below, rfl⟩
      refine ⟨_, within core below, mapped, ?_⟩
      rw [NumaInfo.nodeForCore, mapped, Option.getD_some]
    · refine (fibers_count (sharedOut numNodes totalCores).coreToNode (List.range numNodes) List.nodup_range core).trans ?_
      refine if_congr ⟨?_, fun below => ?_⟩ rfl rfl
      · rintro ⟨node, _, mapped⟩
        exact ((shared_node numNodes totalCores core node).mp mapped).1
      · exact ⟨_, List.mem_range.mpr (within core below), (shared_node numNodes totalCores core _).mpr ⟨below, rfl⟩⟩

theorem detect_shares_iff (listing : NodeListing) (totalCores : Nat) (some : 1 ≤ totalCores) :
    (∃ numaInfo, detectLinux listing totalCores = .ok numaInfo ∧ Shares numaInfo totalCores) ↔ nodeCount listing ∣ totalCores := by
  by_cases roomy : nodeCount listing ≤ totalCores
  · rw [← shares_iff (nodeCount listing) totalCores (Nat.div_pos roomy (node_count_positive listing)), detect_ok listing totalCores roomy]
    constructor
    · rintro ⟨numaInfo, same, shares⟩
      obtain rfl := Except.ok.inj same
      exact shares
    · exact fun shares => ⟨_, rfl, shares⟩
  · have crowded := Nat.lt_of_not_le roomy
    rw [detect_crowded listing totalCores some crowded]
    refine iff_of_false ?_ fun divides => roomy (Nat.le_of_dvd some divides)
    rintro ⟨numaInfo, failed, _⟩
    cases failed

def twoNodes : NodeListing := some [some (asBytes "possible"), some (asBytes "node0"), none, some (asBytes "node1")]

theorem two_nodes_four_cores : ∃ numaInfo, detectLinux twoNodes 4 = .ok numaInfo ∧ Shares numaInfo 4 :=
  (detect_shares_iff twoNodes 4 (by decide)).mpr (by decide)

-- One core and two nodes divide by zero; of five cores the last is on a third node.
theorem two_nodes_odd_cores : detectLinux twoNodes 1 = .error .panic ∧
    ∃ numaInfo, detectLinux twoNodes 5 = .ok numaInfo ∧ numaInfo.numNodes = 2 ∧ numaInfo.nodeForCore 4 = 2 ∧
      ¬ Shares numaInfo 5 := by
  refine ⟨by decide, _, rfl, by decide, by decide, fun shares => ?_⟩
  exact absurd (shares.once 4) (by decide)

end Ners.Server
