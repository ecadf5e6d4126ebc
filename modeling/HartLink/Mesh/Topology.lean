import HartLink.Foundation.Bisection
import HartLink.Foundation.Search
import Mathlib.Data.Finset.Sort

/-!
# Topology and schedule of a mesh network

The neighbour graph and the time-frequency schedule that a network manager
keeps.  A device identifier of eight bytes is its big-endian number: both are
ordered from the first byte on.
-/

namespace HartLink.Mesh

open HartLink.Foundation

structure DeviceId where
  number : UInt64
  deriving DecidableEq, Repr

instance : LinearOrder DeviceId :=
  LinearOrder.lift' (fun device => device.number.toNat) fun first second h => by
    cases first
    cases second
    exact congrArg DeviceId.mk (UInt64.toNat_inj.mp h)

/-! ## The neighbour graph -/

/-- The reliability is given by the 32 bits of the floating-point number. -/
structure LinkHealth where
  rssiDbm : Int16
  reliability : UInt32
  ageSeconds : UInt32
  deriving DecidableEq, Repr

/--
The numbers from 0.0 to 1.0, both zeros among them.  Positive numbers are
ordered as their bits; infinities and the rest of the negative numbers have
larger bits.
-/
def isRatio (bits : UInt32) : Bool := bits ≤ 0x3f800000 ∨ bits = 0x80000000

/-- The order of these numbers: the negative zero is a zero. -/
def ratioRank (bits : UInt32) : Nat :=
  if bits = 0x80000000 then 0 else bits.toNat

structure NodeState where
  id : DeviceId
  nickname : UInt16
  active : Bool
  deriving DecidableEq, Repr

structure MeshGraph where
  nodes : Table DeviceId NodeState := ∅
  links : Table (DeviceId × DeviceId) LinkHealth := ∅
  adjacency : Table DeviceId (Finset DeviceId) := ∅

def orderedPair (left right : DeviceId) : DeviceId × DeviceId :=
  if left ≤ right then (left, right) else (right, left)

namespace MeshGraph

def node (graph : MeshGraph) (id : DeviceId) : Option NodeState :=
  graph.nodes.lookup id

def upsertNode (graph : MeshGraph) (node : NodeState) : MeshGraph :=
  { graph with
    adjacency := graph.adjacency.insert node.id
      ((graph.adjacency.lookup node.id).getD ∅)
    nodes := graph.nodes.insert node.id node }

def removeNode (graph : MeshGraph) (id : DeviceId) : MeshGraph :=
  { adjacency :=
      match graph.adjacency.lookup id with
      | none => graph.adjacency
      | some neighbors =>
          (neighbors.sort (· ≤ ·)).foldl
            (fun adjacency neighbor =>
              Table.modify neighbor (·.erase id) adjacency)
            (graph.adjacency.erase id)
    links := Table.retain (fun pair _ => pair.1 ≠ id ∧ pair.2 ≠ id) graph.links
    nodes := graph.nodes.erase id }

def addNeighbor (device neighbor : DeviceId)
    (adjacency : Table DeviceId (Finset DeviceId)) :
    Table DeviceId (Finset DeviceId) :=
  adjacency.insert device
    (insert neighbor ((adjacency.lookup device).getD ∅))

def updateLink (graph : MeshGraph) (left right : DeviceId)
    (health : LinkHealth) : MeshGraph × Bool :=
  if left = right ∨ ¬ isRatio health.reliability ∨
      (graph.nodes.lookup left).isNone ∨
      (graph.nodes.lookup right).isNone then (graph, false)
  else
    ({ graph with
      links := graph.links.insert (orderedPair left right) health
      adjacency := addNeighbor right left
        (addNeighbor left right graph.adjacency) }, true)

def isActive (graph : MeshGraph) (id : DeviceId) : Bool :=
  (graph.nodes.lookup id).any (·.active)

def isReliable (graph : MeshGraph) (minimumReliability : UInt32)
    (left right : DeviceId) : Bool :=
  (graph.links.lookup (orderedPair left right)).any fun health =>
    ratioRank minimumReliability ≤ ratioRank health.reliability

def neighbors (graph : MeshGraph) (minimumReliability : UInt32)
    (id : DeviceId) : List DeviceId :=
  (((graph.adjacency.lookup id).getD ∅).sort (· ≤ ·)).filter fun candidate =>
    graph.isReliable minimumReliability id candidate &&
      graph.isActive candidate

end MeshGraph

structure Route where
  hops : List DeviceId
  deriving DecidableEq, Repr

/-- The search visits a node at most once, so that it ends after a round each. -/
def MeshGraph.route (graph : MeshGraph) (source destination : DeviceId)
    (minimumReliability : UInt32) : Option Route :=
  if ¬ isRatio minimumReliability then none
  else if ¬ graph.isActive source ∨ ¬ graph.isActive destination then none
  else
    (shortestPath (graph.neighbors minimumReliability) graph.nodes.keys.card
      source destination).map Route.mk

/-! ## The schedule -/

inductive CellDirection where
  | transmit
  | receive
  | shared
  deriving DecidableEq, Repr

structure Cell where
  timeslot : UInt16
  channelOffset : UInt8
  source : DeviceId
  destination : DeviceId
  direction : CellDirection
  deriving DecidableEq, Repr

inductive ScheduleError where
  | emptySuperframe
  | timeslot (timeslot : UInt16)
  | channel (offset : UInt8)
  | loopback
  | conflict (timeslot : UInt16)
  | radioConflict (timeslot : UInt16) (channel : UInt8)
  deriving DecidableEq, Repr

structure Schedule where
  superframeSize : UInt16
  cells : List Cell
  deriving DecidableEq, Repr

namespace Cell

def involves (cell : Cell) (device : DeviceId) : Bool :=
  cell.source = device ∨ cell.destination = device

def before (cell other : Cell) : Bool :=
  cell.timeslot < other.timeslot ∨
    cell.timeslot = other.timeslot ∧ cell.channelOffset < other.channelOffset

def compareKey (cell other : Cell) : Ordering :=
  (compare cell.timeslot other.timeslot).then
    (compare cell.channelOffset other.channelOffset)

end Cell

namespace Schedule

def new (superframeSize : UInt16) : Except ScheduleError Schedule :=
  if superframeSize = 0 then .error .emptySuperframe
  else .ok ⟨superframeSize, []⟩

def insertionIndex (schedule : Schedule) (cell : Cell) : Nat :=
  match binarySearchBy (·.compareKey cell) schedule.cells with
  | .ok index => index
  | .error index => index

def insert (schedule : Schedule) (cell : Cell) :
    Except ScheduleError Unit × Schedule :=
  if cell.timeslot ≥ schedule.superframeSize then
    (.error (.timeslot cell.timeslot), schedule)
  else if cell.channelOffset > 15 then
    (.error (.channel cell.channelOffset), schedule)
  else if cell.source = cell.destination then (.error .loopback, schedule)
  else if schedule.cells.any fun existing =>
      existing.timeslot = cell.timeslot ∧
        (existing.involves cell.source ∨ existing.involves cell.destination)
  then (.error (.conflict cell.timeslot), schedule)
  else if schedule.cells.any fun existing =>
      existing.timeslot = cell.timeslot ∧
        existing.channelOffset = cell.channelOffset
  then (.error (.radioConflict cell.timeslot cell.channelOffset), schedule)
  else
    (.ok (), { schedule with
      cells := schedule.cells.insertIdx (schedule.insertionIndex cell) cell })

def removeDevice (schedule : Schedule) (device : DeviceId) : Schedule :=
  { schedule with
    cells := schedule.cells.filter fun cell => ¬ cell.involves device }

end Schedule

end HartLink.Mesh
