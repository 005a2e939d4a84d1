import XVideoDownloader.Types
import XVideoDownloader.Lib.Table
import Mathlib.Data.List.MinMax

/-!
# Consistent hashing (`crypto/hashring.rs`)

`DefaultHasher` is an arbitrary fixed function on device ids and on URLs.
-/

namespace XVideoDownloader
open Lib

class DefaultHasher where
  hashDevice : Uuid → Nat
  hashUrl : String → Nat

scoped instance Sample.hasher : DefaultHasher := ⟨BitVec.toNat, String.length⟩

structure HashRing where
  /-- The `BTreeMap` from hash to device id. -/
  nodes : Table (Nat × Uuid) fun a b => a.1 = b.1
  /-- The `HashMap` from device id to device. -/
  devices : Table Device fun a b => a.id = b.id
  deriving DecidableEq

namespace HashRing
variable [DefaultHasher]

def new : HashRing := ⟨.empty, .empty⟩

def addDevice (ring : HashRing) (device : Device) : HashRing :=
  ⟨ring.nodes.put (DefaultHasher.hashDevice device.id, device.id), ring.devices.put device⟩

def removeDevice (ring : HashRing) (deviceId : Uuid) : HashRing :=
  ⟨ring.nodes.delete fun n => n.1 = DefaultHasher.hashDevice deviceId,
    ring.devices.delete fun d => d.id = deviceId⟩

def first (nodes : List (Nat × Uuid)) : Option Uuid :=
  (nodes.argmin Prod.fst).map Prod.snd

/-- The first node at or after the hash of the URL, or else the first node of all. -/
def getOwner (ring : HashRing) (url : String) : Option Uuid :=
  if ring.nodes.rows = [] then none
  else
    match first (ring.nodes.rows.filter fun n => DefaultHasher.hashUrl url ≤ n.1) with
    | some id => some id
    | none => first ring.nodes.rows

end HashRing
end XVideoDownloader
