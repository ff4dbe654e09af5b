import PipelineTraining.Fault

/-!
A topology fixes how many ranks share how many layers. Cut into chunks under a
placement it gives a layout, provided every chunk gets the same share.
-/

namespace PipelineTraining

structure Topology where
  depth : Nat
  layers : Nat
  pinned : Option Nat
deriving DecidableEq

namespace Topology

def make (depth layers : Nat) : Except Fault Topology :=
  if depth = 0 then .error (.configuration .noRanks)
  else if layers < depth then .error (.configuration (.tooFewLayers layers depth))
  else if layers % depth ≠ 0 then .error (.configuration (.unevenLayers layers depth))
  else .ok ⟨depth, layers, none⟩

/-- Only for topologies with a rank: without one there is no quotient, where division gives 0
here. `make` refuses such a topology, so that only one read from a file has depth 0. -/
def layersPerRank (topology : Topology) : Nat :=
  topology.layers / topology.depth

def checkChunks (layersPerRank chunks : Nat) : Except Fault Unit :=
  if chunks = 0 then .error (.configuration .noChunks)
  else if layersPerRank % chunks ≠ 0 then
    .error (.configuration (.unevenChunks chunks layersPerRank))
  else .ok ()

/-- Every layout of the topology must then have this many chunks on a rank. -/
def pin (topology : Topology) (chunks : Nat) : Except Fault Topology := do
  checkChunks topology.layersPerRank chunks
  return { topology with pinned := some chunks }

def checkPlacement (topology : Topology) (chunks : Nat) (placement : Placement) :
    Except Fault Unit :=
  match placement.requiredChunks with
  | none => .ok ()
  | some required =>
      if chunks ≠ required then
        .error (.configuration (.chunksForPlacement placement required chunks))
      else if topology.layersPerRank % required ≠ 0 then
        .error (.configuration (.oddLayers placement topology.layersPerRank))
      else .ok ()

def checkPinned (topology : Topology) (chunks : Nat) : Except Fault Unit :=
  match topology.pinned with
  | none => .ok ()
  | some pinned =>
      if pinned ≠ chunks then .error (.configuration (.pinnedChunks pinned chunks)) else .ok ()

def layout (topology : Topology) (chunks : Nat) (placement : Placement) : Except Fault Layout := do
  topology.checkPlacement chunks placement
  checkChunks topology.layersPerRank chunks
  topology.checkPinned chunks
  return {
    depth := topology.depth
    chunks := chunks
    layersPerChunk := topology.layersPerRank / chunks
    placement := placement }

end Topology
end PipelineTraining
