/-
  Requests to an engine: from a graph to a loaded module, built at most once per key, and calls.

  A request assembles the graph and derives its key; a module in memory under that key is the answer.
-/
import OpFusion.Engine.Build

namespace OpFusion.Engine

/-! ## Requests -/

/-- The key of a module. -/
def key (tools : Tools) (m : Module) : Except Error Key := tools.toolchain.identity.map m.key

/-- The loaded module under a key, built if it is not in memory. -/
def request (e : Engine) (tools : Tools) (m : Module) (k : Key) (raised : Bool) :
    Except Error Loaded × Engine :=
  let e := if e.modules.cache.ready.contains k then e.note .debug "module cache hit" else e
  let (i, modules) := e.modules.ask k raised
  let e := { e with modules }
  match modules.asked i with
  | .building =>
    let (verdict, e) := e.build tools m k
    let modules := e.modules.reply i verdict
    (modules.answer i, { e with modules })
  | _ => (modules.answer i, e)

/-- The loaded module of a graph, for a request whose token may be raised. -/
def compile (e : Engine) (tools : Tools) (g : Graph) (raised : Bool) :
    Except Error Loaded × Engine :=
  match Assembly.assemble g with
  | .error err => (.error err, e)
  | .ok m =>
    match key tools m with
    | .error err => (.error err, e)
    | .ok k => e.request tools m k raised

/-- Forgets a key in memory and in the store. -/
def invalidate (e : Engine) (k : Key) : Except Error Unit × Engine :=
  { e with modules := e.modules.run [.invalidate k] }.removeStored k

/-- Forgets all modules in memory. -/
def clearMemory (e : Engine) : Engine := { e with modules := e.modules.run [.clear] }

/-! ## Calls -/

/-- The variables of a loaded module. -/
def staticsOf (e : Engine) (m : Loaded) : Statics := e.units.getD m.unit []

/-- The engine with the variables of a loaded module changed. -/
def setStatics (e : Engine) (m : Loaded) (statics : Statics) : Engine :=
  { e with units := e.units.set m.unit statics }

/-- Calls a module with buffers, or none, in its output slots. -/
def invoke (e : Engine) (m : Loaded) (inputs : List Buffer) (outputs : List (Option Buffer)) :
    Except Error (List (Option Buffer)) × Engine :=
  let c := m.invoke (e.staticsOf m) inputs outputs
  (c.result.map fun _ => c.outputs, e.setStatics m c.statics)

/-- Calls a module and gives all outputs. -/
def call (e : Engine) (m : Loaded) (inputs : List Buffer) : Except Error (List Buffer) × Engine :=
  let (result, statics) := m.call (e.staticsOf m) inputs
  (result, e.setStatics m statics)

/-- Calls a module again and again, and gives the outputs of all calls. -/
def callTimes (e : Engine) (m : Loaded) : Nat → Except Error (List (List Buffer)) × Engine
  | 0 => (.ok [], e)
  | n + 1 =>
    match e.call m [] with
    | (.error err, e) => (.error err, e)
    | (.ok outputs, e) =>
      let (rest, e) := e.callTimes m n
      (rest.map (outputs :: ·), e)

/-- Compiles a graph and calls its module. -/
def run (e : Engine) (tools : Tools) (g : Graph) (inputs : List Buffer)
    (outputs : List (Option Buffer)) : Except Error (List (Option Buffer)) × Engine :=
  match e.compile tools g false with
  | (.error err, e) => (.error err, e)
  | (.ok m, e) => e.invoke m inputs outputs

end OpFusion.Engine
