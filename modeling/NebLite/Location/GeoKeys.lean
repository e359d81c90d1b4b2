import NebLite.Rides.TripState
import NebLite.Atomic.SortedSet
import NebLite.Atomic.Runs
import Mathlib.Logic.Function.Basic
import Mathlib.Data.Int.Order.Basic

/-! `GeolocationRepository.storeDriverLocation` and `MaintenanceProcessor` over the
driver keys in Redis, one command or one transaction at a time. -/

namespace NebLite

open Atomic

structure DriverLocationInput where
  coordinate : Coordinate
  accuracyMeters : Option ℚ
  deriving DecidableEq

structure DriverLocationEntry where
  coordinate : Coordinate
  accuracyMeters : Option ℚ
  updatedAt : String
  deriving DecidableEq

/-- The fields of the hash at `driver:loc:<id>`. -/
structure DriverLocationHash where
  coordinate : Coordinate
  accuracyMeters : ℚ
  updatedAt : String
  deriving DecidableEq

/-- `drivers:geo`, the hashes `driver:loc:<id>`, `geo:drivers:metadata` and `drivers:active`. -/
structure GeoKeys where
  geo : Id → Option Coordinate
  hashes : Id → Option DriverLocationHash
  metadata : Id → Option DriverLocationEntry
  active : SortedSet Id ℤ

def GeoKeys.empty : GeoKeys := ⟨fun _ => none, fun _ => none, fun _ => none, .empty⟩

/-- The arguments of `storeDriverLocation`, and the clock when it is called. -/
structure LocationUpdate where
  driverId : Id
  location : DriverLocationInput
  eventTimestamp : String
  now : ℤ

def LocationUpdate.entry (u : LocationUpdate) : DriverLocationEntry where
  coordinate := u.location.coordinate
  accuracyMeters := u.location.accuracyMeters
  updatedAt := u.eventTimestamp

def LocationUpdate.hash (u : LocationUpdate) : DriverLocationHash where
  coordinate := u.location.coordinate
  accuracyMeters := u.location.accuracyMeters.getD 0
  updatedAt := u.eventTimestamp

namespace GeoKeys

/-- The transaction of `storeDriverLocation`. -/
def storeDriverLocation (w : GeoKeys) (u : LocationUpdate) : GeoKeys where
  geo := Function.update w.geo u.driverId (some u.location.coordinate)
  hashes := Function.update w.hashes u.driverId (some u.hash)
  metadata := Function.update w.metadata u.driverId (some u.entry)
  active := w.active.add u.driverId u.now

/-- The transaction of one batch of `process`. -/
def removeIdle (w : GeoKeys) (staleIds : List Id) : GeoKeys where
  geo k := if k ∈ staleIds then none else w.geo k
  hashes k := if k ∈ staleIds then none else w.hashes k
  metadata k := if k ∈ staleIds then none else w.metadata k
  active := w.active.remove staleIds

end GeoKeys

def thresholdDriverIdleMs : ℤ := 5 * 60 * 1000

def cleanupDriverIdleLocBatch : ℕ := 1000

/-- Where the loop of `process` is: before its read, before its transaction, or after its end. -/
inductive CleanupPass where
  | reading (cutoff : ℤ)
  | removing (cutoff : ℤ) (staleIds : List Id)
  | ended

namespace CleanupPass

def start (now : ℤ) : CleanupPass := .reading (now - thresholdDriverIdleMs)

/-- The next command of the loop. -/
def step (w : GeoKeys) : CleanupPass → CleanupPass × GeoKeys
  | reading cutoff =>
    let staleIds := w.active.rangeByScore 0 cutoff cleanupDriverIdleLocBatch
    (if staleIds.length = 0 then .ended else .removing cutoff staleIds, w)
  | removing cutoff staleIds =>
    (if staleIds.length < cleanupDriverIdleLocBatch then .ended else .reading cutoff, w.removeIdle staleIds)
  | ended => (.ended, w)

end CleanupPass

/-- A transaction on the driver keys. -/
inductive GeoTransaction where
  | store (u : LocationUpdate)
  | remove (staleIds : List Id)

namespace GeoTransaction

/-- The transactions of a step of a pass. -/
def ofPass : CleanupPass → List GeoTransaction
  | .removing _ staleIds => [.remove staleIds]
  | _ => []

/-- What a transaction leaves of driver `d`, where it says anything of him. -/
def leaves (d : Id) : GeoTransaction → Option (Option LocationUpdate)
  | store u => if u.driverId = d then some (some u) else none
  | remove staleIds => if d ∈ staleIds then some none else none

/-- What the transactions leave of driver `d`, the latest of them first. -/
def left (d : Id) (log : List GeoTransaction) : Option (Option LocationUpdate) := log.findSome? (leaves d)

end GeoTransaction

/-- The keys, the passes, all transactions and those since the last read of each pass,
the latest first. -/
structure GeoSystem (ι : Type) where
  keys : GeoKeys
  passes : ι → CleanupPass
  log : List GeoTransaction
  since : ι → List GeoTransaction

inductive GeoStep (ι : Type) where
  | store (u : LocationUpdate)
  | pass (i : ι)

namespace GeoSystem

variable {ι : Type} [DecidableEq ι]

/-- No driver has reported yet, and pass `i` starts when the clock reads `clocks i`. -/
def start (clocks : ι → ℤ) : GeoSystem ι := ⟨.empty, fun i => .start (clocks i), [], fun _ => []⟩

def step (s : GeoSystem ι) : GeoStep ι → GeoSystem ι
  | .store u =>
    { s with
      keys := s.keys.storeDriverLocation u
      log := .store u :: s.log
      since := fun j => .store u :: s.since j }
  | .pass i =>
    let (next, keys) := (s.passes i).step s.keys
    let done := GeoTransaction.ofPass (s.passes i)
    let since j := done ++ s.since j
    { keys
      passes := Function.update s.passes i next
      log := done ++ s.log
      since := match s.passes i with
        | .reading _ => Function.update since i []
        | _ => since }

end GeoSystem

end NebLite
