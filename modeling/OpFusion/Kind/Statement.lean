/-
  Statements of a computation that is written out step by step.

  `Statement.code` is the statement in generated code. What it does is said where modules are run.
-/
import OpFusion.Kind.Context

namespace OpFusion

/-- One step of a computation. -/
inductive Statement where
  /-- Reports a failure of the application and abandons the call. -/
  | fail (message : String)
  /-- Reports a failure and goes on. -/
  | note (bytes : List UInt8)
  /-- Reports a failure without a text and goes on. -/
  | noteNothing
  /-- Sets the status that the call will return. -/
  | status (value : Int)
  /-- Tries to give up an input. -/
  | releaseInput (index : Nat)
  /-- Gives up no buffer. -/
  | releaseNothing
  /-- Gives up an output of the graph. -/
  | dropOutput (index : Nat)
  /-- Allocates a buffer and gives it up. -/
  | allocate (tag rank : Int) (dims : List Int)
  /-- Writes an element of an output. -/
  | set (output position : Nat) (value : Int)
  /-- Writes a counter to the first output and advances it. -/
  | count (symbol : String)
  deriving DecidableEq

namespace Statement

/-- A byte as an octal escape of a literal. -/
def octal (b : UInt8) : String :=
  "\\" ++ toString (b.toNat / 64) ++ toString (b.toNat / 8 % 8) ++ toString (b.toNat % 8)

/-- A literal of bytes. -/
def literal (bytes : List UInt8) : String := "\"" ++ String.join (bytes.map octal) ++ "\""

/-- An integer literal of 64 bits. -/
def wideLiteral (n : Int) : String := toString n ++ "LL"

/-- The statement in generated code. -/
def code (c : Context) : Statement → String
  | fail message => c.fail message
  | note bytes => "rt->fail(rt->ctx, " ++ literal bytes ++ ");"
  | noteNothing => "rt->fail(rt->ctx, NULL);"
  | status value => "fusejit_status = " ++ toString value ++ ";"
  | releaseInput index => "rt->release(rt->ctx, (fusejit_buffer*)" ++ Context.input index ++ ");"
  | releaseNothing => "rt->release(rt->ctx, NULL);"
  | dropOutput index =>
    "rt->release(rt->ctx, outputs[" ++ toString index ++ "]); outputs[" ++ toString index ++
      "] = NULL;"
  | allocate tag rank dims =>
    let declaration :=
      if dims.isEmpty then ""
      else "const int64_t d[] = \x7b" ++ ", ".intercalate (dims.map wideLiteral) ++ "\x7d; "
    "\x7b " ++ declaration ++ "fusejit_buffer* b = rt->alloc(rt->ctx, " ++ toString tag ++ "u, " ++
      toString rank ++ "u, " ++ (if dims.isEmpty then "NULL" else "d") ++
      "); rt->release(rt->ctx, b); \x7d"
  | set output position value =>
    "((int64_t*)" ++ Context.output output ++ "->data)[" ++ toString position ++ "] = " ++
      wideLiteral value ++ ";"
  | count symbol => "((int64_t*)out0->data)[0] = " ++ symbol ++ "++;"

end Statement

end OpFusion
