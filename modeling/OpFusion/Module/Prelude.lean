/-
  The fixed beginning of a module: the header files it includes, and the native side of buffers and of
  the services that a call may use.
-/
import OpFusion.DType
import OpFusion.Module.Piece

namespace OpFusion.Module

/-- The identity under which the prelude owns its symbols. -/
def preludeId : String := "fusejit.prelude"

/-- The global symbols of the prelude and of the entry points. -/
def reservedSymbols : List String :=
  ["fusejit_buffer", "fusejit_runtime", "fusejit_numel", "fusejit_same_dims",
    "fusejit_ensure_output", "fusejit_entry", "fusejit_init", "fusejit_abi_version",
    "FUSEJIT_FAIL", "FUSEJIT_EXPORT"]

/-- The header files of every module. -/
def standardHeaders : List String := ["stddef.h", "stdint.h", "string.h"]

/-- The line that includes a header; a header may bring its own delimiters. -/
def includeLine (header : String) : String :=
  match header.toList with
  | '<' :: _ | '"' :: _ => "#include " ++ header
  | _ => "#include <" ++ header ++ ">"

/-- The included header files: the standard ones, then the others that were asked for. -/
def includes (headers : List String) : Piece :=
  .verbatim (String.join (((standardHeaders ++ headers.filter (· ∉ standardHeaders)).map
    fun header => includeLine header ++ "\n")) ++ "\n")

/-- The definition of the tag of an element type. -/
def tagLine (d : DType) : String := "#define " ++ d.cTag ++ " " ++ toString d.tag ++ "u"

/-- The lines of the native side of buffers and services. -/
def preludeLines : List String := DType.all.map tagLine ++ [
  "#define FUSEJIT_FLAG_ROW_MAJOR 1u",
  "#define FUSEJIT_FLAG_COL_MAJOR 2u",
  "",
  "#if defined(_WIN32)",
  "#define FUSEJIT_EXPORT __declspec(dllexport)",
  "#else",
  "#define FUSEJIT_EXPORT __attribute__((visibility(\"default\")))",
  "#endif",
  "",
  "typedef struct fusejit_buffer \x7b",
  "  uint32_t dtype;",
  "  uint32_t rank;",
  "  const int64_t* dims;",
  "  const int64_t* strides;",
  "  void* data;",
  "  uint32_t flags;",
  "\x7d fusejit_buffer;",
  "",
  "typedef struct fusejit_runtime \x7b",
  "  void* ctx;",
  "  fusejit_buffer* (*alloc)(void* ctx, uint32_t dtype, uint32_t rank, const int64_t* dims);",
  "  void (*release)(void* ctx, fusejit_buffer* buffer);",
  "  void (*fail)(void* ctx, const char* message);",
  "\x7d fusejit_runtime;",
  "",
  "#define FUSEJIT_FAIL(message) \\",
  "  do \x7b \\",
  "    rt->fail(rt->ctx, (message)); \\",
  "    fusejit_status = 1; \\",
  "    goto fusejit_cleanup; \\",
  "  \x7d while (0)",
  "",
  "static int64_t fusejit_numel(const fusejit_buffer* buffer) \x7b",
  "  int64_t count = 1;",
  "  for (uint32_t axis = 0; axis < buffer->rank; ++axis) \x7b",
  "    count *= buffer->dims[axis];",
  "  \x7d",
  "  return count;",
  "\x7d",
  "",
  "static int fusejit_same_dims(const fusejit_buffer* a, const fusejit_buffer* b) \x7b",
  "  if (a->rank != b->rank) \x7b",
  "    return 0;",
  "  \x7d",
  "  for (uint32_t axis = 0; axis < a->rank; ++axis) \x7b",
  "    if (a->dims[axis] != b->dims[axis]) \x7b",
  "      return 0;",
  "    \x7d",
  "  \x7d",
  "  return 1;",
  "\x7d",
  "",
  "static int fusejit_ensure_output(",
  "    const fusejit_runtime* rt,",
  "    fusejit_buffer** slot,",
  "    uint32_t dtype,",
  "    uint32_t rank,",
  "    const int64_t* dims) \x7b",
  "  fusejit_buffer* current = *slot;",
  "  if (current != NULL && current->dtype == dtype && current->rank == rank &&",
  "      (current->flags & FUSEJIT_FLAG_ROW_MAJOR) != 0) \x7b",
  "    uint32_t axis = 0;",
  "    while (axis < rank && current->dims[axis] == dims[axis]) \x7b",
  "      ++axis;",
  "    \x7d",
  "    if (axis == rank) \x7b",
  "      return 0;",
  "    \x7d",
  "  \x7d",
  "  if (current != NULL) \x7b",
  "    *slot = NULL;",
  "    rt->release(rt->ctx, current);",
  "  \x7d",
  "  *slot = rt->alloc(rt->ctx, dtype, rank, dims);",
  "  return *slot == NULL ? 1 : 0;",
  "\x7d",
  ""]

/-- The native side of buffers and services. -/
def prelude : Piece := .lines preludeLines

end OpFusion.Module
