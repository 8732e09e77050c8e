/-
  Jobs for a compiler, and the arguments that it is run with.
-/
import OpFusion.Key
import OpFusion.Link

namespace OpFusion

/-- A module to compile and link: its key for messages, its text, and where the library goes. -/
structure Job where
  key : Key
  source : String
  output : String
  link : Link

/-- The arguments for a job, with the flags of the compiler. -/
def Job.arguments (flags : List String) (j : Job) : List String :=
  ["-shared", "-fPIC"] ++ flags ++ j.link.compileFlags ++
    j.link.includeDirs.map ("-I" ++ ·) ++
    ["-o", j.output, j.source] ++
    j.link.libDirs.flatMap (fun dir => ["-L" ++ dir, "-Wl,-rpath," ++ dir]) ++
    j.link.libraries.map ("-l" ++ ·) ++ j.link.linkFlags

/-- The extension of a shared library. -/
def Job.libraryExtension : String := "so"

end OpFusion
