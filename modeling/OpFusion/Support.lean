/-
  The global blocks of a module: collected without repetition, and ordered by their dependencies.

  `SupportSet.insert` keeps one block per identity, which has to be the same block each time, and a
  table that gives every global symbol one owner; the table is shared with other sets. `ordered`
  lists the blocks in the order of their contribution, each after the blocks it depends on.
-/
import OpFusion.Kind.Context

namespace OpFusion

/-- The owner of each global symbol; the first entry of a symbol counts. -/
abbrev SymbolTable : Type := List (String × String)

/-- Blocks in the order of their contribution. -/
abbrev SupportSet : Type := List SupportBlock

namespace Support

/-- Why blocks do not form a module. -/
inductive Fault where
  /-- Two different blocks with one identity. -/
  | inconsistent (id owner : String)
  /-- A symbol that another block defines. -/
  | duplicateSymbol (symbol other id owner : String)
  /-- A block that depends on itself. -/
  | cycle (id : String)
  /-- A block that depends on one that is not there. -/
  | unknownBlock (id dependency : String)
  deriving DecidableEq

/-- The wording of a fault. -/
def Fault.message : Fault → String
  | .inconsistent id owner =>
    "support block '" ++ id ++ "' from " ++ owner ++
      " differs from an earlier contribution with the same id"
  | .duplicateSymbol symbol other id owner =>
    "duplicate symbol '" ++ symbol ++ "': defined by '" ++ other ++ "' and by '" ++ id ++
      "' from " ++ owner
  | .cycle id => "support block '" ++ id ++ "' is part of a dependency cycle"
  | .unknownBlock id dependency =>
    "support block '" ++ id ++ "' depends on unknown block '" ++ dependency ++ "'"

/-- The error of a fault. -/
def Fault.toError (f : Fault) : Error := .assembly f.message

/-- The table with a symbol of a block, unless another block owns it. -/
def claimSymbol (id owner : String) (table : SymbolTable) (symbol : String) :
    Except Fault SymbolTable :=
  match table.lookup symbol with
  | some other =>
    if other = id then .ok ((symbol, id) :: table)
    else .error (.duplicateSymbol symbol other id owner)
  | none => .ok ((symbol, id) :: table)

/-- The set and the table with one more block. -/
def insert (blocks : SupportSet) (table : SymbolTable) (block : SupportBlock) (owner : String) :
    Except Fault (SupportSet × SymbolTable) :=
  match blocks.find? (·.id = block.id) with
  | some existing =>
    if existing = block then .ok (blocks, table) else .error (.inconsistent block.id owner)
  | none =>
    match block.symbols.foldlM (claimSymbol block.id owner) table with
    | .ok table => .ok (blocks ++ [block], table)
    | .error fault => .error fault

/-- The set and the table with more blocks of one owner. -/
def insertAll (blocks : SupportSet) (table : SymbolTable) (owner : String) :
    List SupportBlock → Except Fault (SupportSet × SymbolTable)
  | [] => .ok (blocks, table)
  | block :: rest =>
    match insert blocks table block owner with
    | .ok (blocks, table) => insertAll blocks table owner rest
    | .error fault => .error fault

/-- The order with a block after the blocks it depends on. `path` are the identities of the blocks
that wait for this one; a path never has more blocks than the set, so `fuel` bounds its growth. -/
def visit (blocks : SupportSet) (emitted : List String) :
    (fuel : Nat) → SupportBlock → (path : List String) → (order : List SupportBlock) →
      Except Fault (List SupportBlock)
  | 0, block, _, _ => .error (.cycle block.id)
  | fuel + 1, block, path, order =>
    if block.id ∈ order.map (·.id) then .ok order
    else if block.id ∈ path then .error (.cycle block.id)
    else do
      let order ← block.after.foldlM (fun order dependency =>
        if dependency ∈ emitted then .ok order
        else match blocks.find? (·.id = dependency) with
          | none => .error (.unknownBlock block.id dependency)
          | some needed => visit blocks emitted fuel needed (block.id :: path) order) order
      return order ++ [block]

/-- The blocks, each after those it depends on; `emitted` are the identities that stand before. -/
def ordered (blocks : SupportSet) (emitted : List String) : Except Fault (List SupportBlock) :=
  blocks.foldlM (fun order block => visit blocks emitted (blocks.length + 1) block [] order) []

end Support

end OpFusion
