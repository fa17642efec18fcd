import ServiceRegistry.Storage.Database
import ServiceRegistry.Storage.Memory

/-!
# The stores of the library

A catalog keeps its records either in memory or in a database.
-/

namespace ServiceRegistry

inductive RecordStore
  | memory (records : Memory)
  | database (tables : Database)
deriving DecidableEq, Repr, Inhabited

namespace RecordStore

def answer (now : Int) : Backend RecordStore := fun call store =>
  match store with
  | memory records =>
    let (reply, records) := Memory.answer now call records
    (reply, memory records)
  | database tables =>
    let (reply, tables) := Database.answer now call tables
    (reply, database tables)

def failNext (count : Nat) : RecordStore → RecordStore
  | memory records => memory (records.failNext count)
  | database tables => database tables

def refreshes : RecordStore → Nat
  | memory records => records.refreshes
  | database _ => 0

end RecordStore

end ServiceRegistry
