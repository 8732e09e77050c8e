/-
  The store of an engine, whose operations may be refused.
-/
import OpFusion.Engine.Basic

namespace OpFusion.Engine

/-- The error of a refused operation. -/
def refusal (operation : String) : Error := .io "faulty store" (operation ++ " refused")

/-- The bytes that are stored under a key, if there is a store. -/
def readStore (e : Engine) (k : Key) : Except Error (Option (List UInt8)) :=
  match e.store with
  | none => .ok none
  | some s => if e.faults.read then .error (refusal "read") else s.read e.files k

/-- Stores bytes under a key, if there is a store. -/
def writeStore (e : Engine) (k : Key) (bytes : List UInt8) : Except Error Unit × Engine :=
  match e.store with
  | none => (.ok (), e)
  | some s =>
    if e.faults.write then (.error (refusal "write"), e)
    else
      let (result, store, files) := s.write e.files k bytes
      (result, { e with store := some store, files })

/-- Removes what is stored under a key, if there is a store. -/
def removeStored (e : Engine) (k : Key) : Except Error Unit × Engine :=
  match e.store with
  | none => (.ok (), e)
  | some s =>
    if e.faults.remove then (.error (refusal "remove"), e)
    else
      let (result, store, files) := s.remove e.files k
      (result.map fun _ => (), { e with store := some store, files })

/-- What is stored under a key, whatever operations are refused. -/
def stored (e : Engine) (k : Key) : Except Error (Option (List UInt8)) :=
  { e with faults := {} }.readStore k

/-- Stores bytes under a key, whatever operations are refused. -/
def plant (e : Engine) (k : Key) (bytes : List UInt8) : Except Error Unit × Engine :=
  let (result, after) := { e with faults := {} }.writeStore k bytes
  (result, { after with faults := e.faults })

end OpFusion.Engine
