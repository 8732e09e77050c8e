/-
  The text of a module, part by part.

  A module is one text: a header comment that shows what its key depends on, the prelude,
  the global blocks, one entry function that runs the applications in order, and, if there is
  initialisation code, a function that runs it.
-/
import OpFusion.Module.Prelude
import OpFusion.Module.Signature
import OpFusion.Module.Slot
import OpFusion.Source.Comment

namespace OpFusion

/-- An output of an application: its slot, its description and its extents. -/
structure OutputPlan where
  slot : Slot
  desc : VarDesc
  extents : List Extent
  deriving DecidableEq

/-- An application in place: where its operands are, and what it computes. -/
structure Plan where
  context : Context
  inputs : List Slot
  outputs : List OutputPlan
  body : Body
  deriving DecidableEq

namespace Module

/-- The entry function. -/
def entrySymbol : String := "fusejit_entry"

/-- The function that runs initialisation code. -/
def initSymbol : String := "fusejit_init"

/-- The function that returns the version of the native interface. -/
def abiSymbol : String := "fusejit_abi_version"

/-- The version of the native interface. -/
def abiVersion : Nat := 1

/-- A line of the header for a list of requirements, if there are any. -/
def linkLine (label : String) (values : List String) : List String :=
  if values.isEmpty then []
  else [" * " ++ label ++ ": " ++ Source.commentText (" ".intercalate values)]

/-- The lines of the header for requirements. -/
def linkLines (link : Link) : List String :=
  linkLine "headers" link.headers ++ linkLine "libraries" link.libraries ++
    linkLine "lib_dirs" link.libDirs ++ linkLine "include_dirs" link.includeDirs ++
    linkLine "compile_flags" link.compileFlags ++ linkLine "link_flags" link.linkFlags

/-- The header comment: the interface version, the inputs and outputs, the signatures and the
requirements. -/
def header (inputs outputs : List Binding) (signatures : List Signature) (link : Link) : Piece :=
  .lines (["/* fusejit generated module",
    " * abi: " ++ toString abiVersion,
    " * inputs: [" ++ Signature.bindingsText inputs ++ "]",
    " * outputs: [" ++ Signature.bindingsText outputs ++ "]"] ++
    (signatures.map fun s => " * " ++ Source.commentText s.text) ++ linkLines link ++
    [" */", ""])

/-- The comment with the identity of a block. -/
def blockComment (id : String) : String := "/* " ++ Source.commentText id ++ " */"

/-- A global block under its comment. -/
def supportPieces (block : SupportBlock) : List Piece :=
  [.lines [blockComment block.id], .block 0 block.code, .lines [""]]

/-- The declaration of the extents of an output. -/
def extentsDeclaration (index : Nat) (extents : List Extent) : String :=
  if extents.isEmpty then "const int64_t* out" ++ toString index ++ "_dims = NULL;"
  else "const int64_t out" ++ toString index ++ "_dims[" ++ toString extents.length ++ "] = \x7b" ++
    ", ".intercalate (extents.map (·.text)) ++ "\x7d;"

/-- The text of the failure to allocate an output. -/
def allocationFailure (c : Context) (index : Nat) : String :=
  c.failure ("cannot allocate output " ++ toString index)

/-- The code that puts a buffer of the right shape in place for an output. -/
def outputPiece (c : Context) (index : Nat) (o : OutputPlan) : Piece :=
  .block 2 (Text.indented 16 [
    "\x7b",
    "  " ++ extentsDeclaration index o.extents,
    "  if (fusejit_ensure_output(rt, &" ++ o.slot.expr ++ ", " ++ o.desc.dtype.cTag ++ ", " ++
      toString o.desc.rank ++ "u, out" ++ toString index ++ "_dims) != 0) \x7b",
    "    FUSEJIT_FAIL(\"" ++ Source.escape (allocationFailure c index) ++ "\");",
    "  \x7d",
    "\x7d",
    "out" ++ toString index ++ " = " ++ o.slot.expr ++ ";"])

/-- The comment that marks the code of an application. -/
def marker (name : String) : String := "/* " ++ name ++ " */"

/-- The code of an application up to its computation: its operands and its outputs. -/
def applicationOpening (p : Plan) : List Piece :=
  [.lines ["  " ++ marker p.context.name, "  \x7b"],
    .lines (p.inputs.mapIdx fun index slot =>
      "    const fusejit_buffer* in" ++ toString index ++ " = " ++ slot.expr ++ ";"),
    .lines (p.outputs.mapIdx fun index _ => "    fusejit_buffer* out" ++ toString index ++ ";")] ++
    (p.outputs.mapIdx fun index o => outputPiece p.context index o) ++
    [.lines ["    \x7b"]]

/-- The computation of an application. -/
def bodyPiece (p : Plan) : Piece := .block 3 (p.body.text p.context)

/-- The code of an application: its operands, its outputs and its computation. -/
def applicationPieces (p : Plan) : List Piece :=
  applicationOpening p ++ [bodyPiece p, .lines ["    \x7d", "  \x7d"]]

/-- The declaration of the temporary slots, if there are any. -/
def tempsLines (count : Nat) : List String :=
  if count = 0 then []
  else ["  fusejit_buffer* fusejit_temps[" ++ toString count ++ "] = \x7b0\x7d;"]

/-- The release of the temporary buffers, if there are any. -/
def cleanupLines (count : Nat) : List String :=
  if count = 0 then []
  else [
    "  for (size_t index = 0; index < " ++ toString count ++ "u; ++index) \x7b",
    "    if (fusejit_temps[index] != NULL) \x7b",
    "      rt->release(rt->ctx, fusejit_temps[index]);",
    "    \x7d",
    "  \x7d"]

/-- The text of the failure of a call with the wrong number of operands. -/
def countFailure (inputs outputs : Nat) : String :=
  "expected " ++ toString inputs ++ " input(s) and " ++ toString outputs ++ " output(s)"

/-- The entry function up to the applications. -/
def entryOpening (inputs outputs temps : Nat) : Piece :=
  .lines (["FUSEJIT_EXPORT int " ++ entrySymbol ++ "(",
    "    const fusejit_runtime* rt,",
    "    const fusejit_buffer* const* inputs,",
    "    size_t n_inputs,",
    "    fusejit_buffer** outputs,",
    "    size_t n_outputs) \x7b",
    "  int fusejit_status = 0;"] ++ tempsLines temps ++
    ["  if (n_inputs != " ++ toString inputs ++ "u || n_outputs != " ++ toString outputs ++ "u) \x7b",
    "    rt->fail(rt->ctx, \"" ++ countFailure inputs outputs ++ "\");",
    "    return 1;",
    "  \x7d",
    "  (void)inputs;",
    "  (void)outputs;"])

/-- The entry function. -/
def entryPieces (plans : List Plan) (inputs outputs temps : Nat) : List Piece :=
  [entryOpening inputs outputs temps] ++ plans.flatMap applicationPieces ++
    [.lines (["fusejit_cleanup:"] ++ cleanupLines temps ++ ["  return fusejit_status;", "\x7d", ""])]

/-- The function that runs initialisation code, if there is any. -/
def initPieces (code : List String) : List Piece :=
  if code.isEmpty then []
  else
    [.lines ["FUSEJIT_EXPORT int " ++ initSymbol ++ "(const fusejit_runtime* rt) \x7b",
      "  (void)rt;"]] ++
    code.flatMap (fun c => [.lines ["  \x7b"], .block 2 c, .lines ["  \x7d"]]) ++
    [.lines ["  return 0;", "\x7d", ""]]

/-- The function that returns the version of the native interface. -/
def abiPiece : Piece :=
  .lines ["FUSEJIT_EXPORT uint32_t " ++ abiSymbol ++ "(void) \x7b return " ++ toString abiVersion ++
    "u; \x7d"]

end Module

end OpFusion
