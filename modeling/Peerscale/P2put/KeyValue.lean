import Mathlib.Logic.Function.Basic
import Peerscale.Foundation.GoValue

/-! # Keys and values

`PutKV`, `GetKV` and `DelKV` keep values in the DHT or behind a proxy. In the DHT a value is put
under another key than the one that is read. Behind the proxy a deleted value is an empty one,
which is found.
-/

namespace Peerscale.P2put.KeyValue

structure JamiProxy where
  infoHash : GoString → GoString
  encode : Bytes → GoString
  decode : GoString → Option Bytes
  marshal : GoString → Bytes
  unmarshal : Bytes → Option GoString
  decodes : ∀ value, decode (encode value) = some value
  unmarshals : ∀ data, unmarshal (marshal data) = some data

/-- What is behind a backend: a map, in which the last write wins. -/
abbrev Store := GoString → Option Bytes

inductive KVError
  | notFound
  | noValues
  | undecodable
  deriving DecidableEq

variable (proxy : JamiProxy) (store : Store) (key : GoString) (value : Bytes)

def jamiPut : Store :=
  Function.update store (proxy.infoHash key) (some (proxy.marshal (proxy.encode value)))

/-- The proxy answers with a line for each value of the key. -/
def jamiGet : Except KVError Bytes :=
  match store (proxy.infoHash key) with
  | none => .error .notFound
  | some line =>
    match ([line].filterMap proxy.unmarshal).getLast? with
    | none => .error .noValues
    | some data =>
      match proxy.decode data with
      | some value => .ok value
      | none => .error .undecodable

/-- The put is checked under the key with the prefix, and succeeds. -/
def dhtPutKV : Store := Function.update store (ascii "/pk/" ++ key) (some value)

def dhtGetKV : Except KVError Bytes :=
  match store key with
  | none | some [] => .error .notFound
  | some value => .ok value

def dhtDelKV : Store := Function.update store key (some [])

inductive Backend
  | dht
  | jami
  deriving DecidableEq

def putKV : Backend → Store
  | .dht => dhtPutKV store key value
  | .jami => jamiPut proxy store key value

def getKV (store : Store) : Backend → Except KVError Bytes
  | .dht => dhtGetKV store key
  | .jami => jamiGet proxy store key

def delKV : Backend → Store
  | .dht => dhtDelKV store key
  | .jami => jamiPut proxy store key []

theorem jamiGet_jamiPut : jamiGet proxy (jamiPut proxy store key value) key = .ok value := by
  rw [jamiGet, jamiPut, Function.update_self]
  simp [proxy.unmarshals, proxy.decodes]

theorem dhtGetKV_dhtPutKV : dhtGetKV (dhtPutKV store key value) key = dhtGetKV store key := by
  have longer : key ≠ ascii "/pk/" ++ key := by
    intro same
    have length := congrArg List.length same
    rw [List.length_append] at length
    have four : (ascii "/pk/").length = 4 := by decide
    omega
  rw [dhtGetKV, dhtPutKV, Function.update_of_ne longer]
  rfl

/-- A value that is put is found behind the proxy, and in the DHT if it has been there before.
A deleted one is not found in the DHT only. -/
theorem facade_iff (backend : Backend) :
    (getKV proxy key (putKV proxy store key value backend) backend = .ok value ↔
      backend = .jami ∨ dhtGetKV store key = .ok value) ∧
    (getKV proxy key (delKV proxy store key backend) backend = .error .notFound ↔
      backend = .dht) := by
  cases backend with
  | dht =>
    have deleted : dhtGetKV (dhtDelKV store key) key = .error .notFound := by
      rw [dhtGetKV, dhtDelKV, Function.update_self]
    simp [getKV, putKV, delKV, dhtGetKV_dhtPutKV, deleted]
  | jami => simp [getKV, putKV, delKV, jamiGet_jamiPut]

def plainProxy : JamiProxy := ⟨id, id, some, id, some, fun _ => rfl, fun _ => rfl⟩

theorem facade_broken :
    getKV plainProxy [1] (putKV plainProxy (fun _ => none) [1] [2] .dht) .dht = .error .notFound ∧
      getKV plainProxy [1] (delKV plainProxy (fun _ => none) [1] .jami) .jami = .ok [] := by
  decide +kernel

end Peerscale.P2put.KeyValue
