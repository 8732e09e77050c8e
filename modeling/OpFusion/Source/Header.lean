/-
  What the compiler and its standard headers define.

  Some abbreviations are known from the start; the others, and the names of types, come with the header
  that is included.
-/

namespace OpFusion.Source.Header

/-- The abbreviations that are known from the start, each with what it stands for. -/
def known : List String :=
  ["_LP64 1", "__ATOMIC_ACQUIRE 2", "__ATOMIC_ACQ_REL 4", "__ATOMIC_CONSUME 1",
    "__ATOMIC_RELAXED 0", "__ATOMIC_RELEASE 3", "__ATOMIC_SEQ_CST 5", "__BIGGEST_ALIGNMENT__ 16",
    "__BYTE_ORDER__ __ORDER_LITTLE_ENDIAN__", "__CHAR16_TYPE__ short unsigned int",
    "__CHAR32_TYPE__ unsigned int", "__CHAR_BIT__ 8", "__DBL_DECIMAL_DIG__ 17",
    "__DBL_DENORM_MIN__ ((double)4.94065645841246544176568792868221372e-324L)", "__DBL_DIG__ 15",
    "__DBL_EPSILON__ ((double)2.22044604925031308084726333618164062e-16L)", "__DBL_HAS_DENORM__ 1",
    "__DBL_HAS_INFINITY__ 1", "__DBL_HAS_QUIET_NAN__ 1", "__DBL_IS_IEC_60559__ 1",
    "__DBL_MANT_DIG__ 53", "__DBL_MAX_10_EXP__ 308", "__DBL_MAX_EXP__ 1024",
    "__DBL_MAX__ ((double)1.79769313486231570814527423731704357e+308L)",
    "__DBL_MIN_10_EXP__ (-307)", "__DBL_MIN_EXP__ (-1021)",
    "__DBL_MIN__ ((double)2.22507385850720138309023271733240406e-308L)",
    "__DBL_NORM_MAX__ ((double)1.79769313486231570814527423731704357e+308L)", "__ELF__ 1",
    "__FINITE_MATH_ONLY__ 0", "__FLOAT_WORD_ORDER__ __ORDER_LITTLE_ENDIAN__",
    "__FLT_DECIMAL_DIG__ 9", "__FLT_DENORM_MIN__ 1.40129846432481707092372958328991613e-45F",
    "__FLT_DIG__ 6", "__FLT_EPSILON__ 1.19209289550781250000000000000000000e-7F",
    "__FLT_EVAL_METHOD_TS_18661_3__ 0", "__FLT_EVAL_METHOD__ 0", "__FLT_HAS_DENORM__ 1",
    "__FLT_HAS_INFINITY__ 1", "__FLT_HAS_QUIET_NAN__ 1", "__FLT_IS_IEC_60559__ 1",
    "__FLT_MANT_DIG__ 24", "__FLT_MAX_10_EXP__ 38", "__FLT_MAX_EXP__ 128",
    "__FLT_MAX__ 3.40282346638528859811704183484516925e+38F", "__FLT_MIN_10_EXP__ (-37)",
    "__FLT_MIN_EXP__ (-125)", "__FLT_MIN__ 1.17549435082228750796873653722224568e-38F",
    "__FLT_NORM_MAX__ 3.40282346638528859811704183484516925e+38F", "__FLT_RADIX__ 2",
    "__GNUC_EXECUTION_CHARSET_NAME \"UTF-8\"", "__GNUC_MINOR__ 3", "__GNUC_PATCHLEVEL__ 0",
    "__GNUC_STDC_INLINE__ 1", "__GNUC_WIDE_EXECUTION_CHARSET_NAME \"UTF-32LE\"", "__GNUC__ 13",
    "__INT16_C(c) c", "__INT16_MAX__ 0x7fff", "__INT16_TYPE__ short int", "__INT32_C(c) c",
    "__INT32_MAX__ 0x7fffffff", "__INT32_TYPE__ int", "__INT64_C(c) c ## L",
    "__INT64_MAX__ 0x7fffffffffffffffL", "__INT64_TYPE__ long int", "__INT8_C(c) c",
    "__INT8_MAX__ 0x7f", "__INT8_TYPE__ signed char", "__INTMAX_C(c) c ## L",
    "__INTMAX_MAX__ 0x7fffffffffffffffL", "__INTMAX_TYPE__ long int", "__INTMAX_WIDTH__ 64",
    "__INTPTR_MAX__ 0x7fffffffffffffffL", "__INTPTR_TYPE__ long int", "__INTPTR_WIDTH__ 64",
    "__INT_FAST16_MAX__ 0x7fffffffffffffffL", "__INT_FAST16_TYPE__ long int",
    "__INT_FAST16_WIDTH__ 64", "__INT_FAST32_MAX__ 0x7fffffffffffffffL",
    "__INT_FAST32_TYPE__ long int", "__INT_FAST32_WIDTH__ 64",
    "__INT_FAST64_MAX__ 0x7fffffffffffffffL", "__INT_FAST64_TYPE__ long int",
    "__INT_FAST64_WIDTH__ 64", "__INT_FAST8_MAX__ 0x7f", "__INT_FAST8_TYPE__ signed char",
    "__INT_FAST8_WIDTH__ 8", "__INT_LEAST16_MAX__ 0x7fff", "__INT_LEAST16_TYPE__ short int",
    "__INT_LEAST16_WIDTH__ 16", "__INT_LEAST32_MAX__ 0x7fffffff", "__INT_LEAST32_TYPE__ int",
    "__INT_LEAST32_WIDTH__ 32", "__INT_LEAST64_MAX__ 0x7fffffffffffffffL",
    "__INT_LEAST64_TYPE__ long int", "__INT_LEAST64_WIDTH__ 64", "__INT_LEAST8_MAX__ 0x7f",
    "__INT_LEAST8_TYPE__ signed char", "__INT_LEAST8_WIDTH__ 8", "__INT_MAX__ 0x7fffffff",
    "__INT_WIDTH__ 32", "__LDBL_DECIMAL_DIG__ 21",
    "__LDBL_DENORM_MIN__ 3.64519953188247460252840593361941982e-4951L", "__LDBL_DIG__ 18",
    "__LDBL_EPSILON__ 1.08420217248550443400745280086994171e-19L", "__LDBL_HAS_DENORM__ 1",
    "__LDBL_HAS_INFINITY__ 1", "__LDBL_HAS_QUIET_NAN__ 1", "__LDBL_IS_IEC_60559__ 1",
    "__LDBL_MANT_DIG__ 64", "__LDBL_MAX_10_EXP__ 4932", "__LDBL_MAX_EXP__ 16384",
    "__LDBL_MAX__ 1.18973149535723176502126385303097021e+4932L", "__LDBL_MIN_10_EXP__ (-4931)",
    "__LDBL_MIN_EXP__ (-16381)", "__LDBL_MIN__ 3.36210314311209350626267781732175260e-4932L",
    "__LDBL_NORM_MAX__ 1.18973149535723176502126385303097021e+4932L",
    "__LONG_LONG_MAX__ 0x7fffffffffffffffLL", "__LONG_LONG_WIDTH__ 64",
    "__LONG_MAX__ 0x7fffffffffffffffL", "__LONG_WIDTH__ 64", "__LP64__ 1", "__OPTIMIZE__ 1",
    "__ORDER_BIG_ENDIAN__ 4321", "__ORDER_LITTLE_ENDIAN__ 1234", "__ORDER_PDP_ENDIAN__ 3412",
    "__PIC__ 2", "__PTRDIFF_MAX__ 0x7fffffffffffffffL", "__PTRDIFF_TYPE__ long int",
    "__PTRDIFF_WIDTH__ 64", "__SCHAR_MAX__ 0x7f", "__SCHAR_WIDTH__ 8", "__SHRT_MAX__ 0x7fff",
    "__SHRT_WIDTH__ 16", "__SIG_ATOMIC_MAX__ 0x7fffffff",
    "__SIG_ATOMIC_MIN__ (-__SIG_ATOMIC_MAX__ - 1)", "__SIG_ATOMIC_TYPE__ int",
    "__SIG_ATOMIC_WIDTH__ 32", "__SIZEOF_DOUBLE__ 8", "__SIZEOF_FLOAT128__ 16",
    "__SIZEOF_FLOAT80__ 16", "__SIZEOF_FLOAT__ 4", "__SIZEOF_INT128__ 16", "__SIZEOF_INT__ 4",
    "__SIZEOF_LONG_DOUBLE__ 16", "__SIZEOF_LONG_LONG__ 8", "__SIZEOF_LONG__ 8",
    "__SIZEOF_POINTER__ 8", "__SIZEOF_PTRDIFF_T__ 8", "__SIZEOF_SHORT__ 2", "__SIZEOF_SIZE_T__ 8",
    "__SIZEOF_WCHAR_T__ 4", "__SIZEOF_WINT_T__ 4", "__SIZE_MAX__ 0xffffffffffffffffUL",
    "__SIZE_TYPE__ long unsigned int", "__SIZE_WIDTH__ 64", "__STDC_HOSTED__ 1",
    "__STDC_IEC_559_COMPLEX__ 1", "__STDC_IEC_559__ 1", "__STDC_IEC_60559_BFP__ 201404L",
    "__STDC_IEC_60559_COMPLEX__ 201404L", "__STDC_ISO_10646__ 201706L", "__STDC_UTF_16__ 1",
    "__STDC_UTF_32__ 1", "__STDC_VERSION__ 201710L", "__STDC__ 1", "__UINT16_C(c) c",
    "__UINT16_MAX__ 0xffff", "__UINT16_TYPE__ short unsigned int", "__UINT32_C(c) c ## U",
    "__UINT32_MAX__ 0xffffffffU", "__UINT32_TYPE__ unsigned int", "__UINT64_C(c) c ## UL",
    "__UINT64_MAX__ 0xffffffffffffffffUL", "__UINT64_TYPE__ long unsigned int", "__UINT8_C(c) c",
    "__UINT8_MAX__ 0xff", "__UINT8_TYPE__ unsigned char", "__UINTMAX_C(c) c ## UL",
    "__UINTMAX_MAX__ 0xffffffffffffffffUL", "__UINTMAX_TYPE__ long unsigned int",
    "__UINTPTR_MAX__ 0xffffffffffffffffUL", "__UINTPTR_TYPE__ long unsigned int",
    "__UINT_FAST16_MAX__ 0xffffffffffffffffUL", "__UINT_FAST16_TYPE__ long unsigned int",
    "__UINT_FAST32_MAX__ 0xffffffffffffffffUL", "__UINT_FAST32_TYPE__ long unsigned int",
    "__UINT_FAST64_MAX__ 0xffffffffffffffffUL", "__UINT_FAST64_TYPE__ long unsigned int",
    "__UINT_FAST8_MAX__ 0xff", "__UINT_FAST8_TYPE__ unsigned char", "__UINT_LEAST16_MAX__ 0xffff",
    "__UINT_LEAST16_TYPE__ short unsigned int", "__UINT_LEAST32_MAX__ 0xffffffffU",
    "__UINT_LEAST32_TYPE__ unsigned int", "__UINT_LEAST64_MAX__ 0xffffffffffffffffUL",
    "__UINT_LEAST64_TYPE__ long unsigned int", "__UINT_LEAST8_MAX__ 0xff",
    "__UINT_LEAST8_TYPE__ unsigned char", "__VERSION__ \"13.3.0\"", "__WCHAR_MAX__ 0x7fffffff",
    "__WCHAR_MIN__ (-__WCHAR_MAX__ - 1)", "__WCHAR_TYPE__ int", "__WCHAR_WIDTH__ 32",
    "__WINT_MAX__ 0xffffffffU", "__WINT_MIN__ 0U", "__WINT_TYPE__ unsigned int",
    "__WINT_WIDTH__ 32", "__amd64 1", "__amd64__ 1", "__gnu_linux__ 1", "__linux 1", "__linux__ 1",
    "__pic__ 2", "__unix 1", "__unix__ 1", "__x86_64 1", "__x86_64__ 1", "linux 1", "unix 1",
    "__builtin_offsetof(type, member) ((unsigned long)&((type*)0)->member)",
    "__builtin_expect(x, y) ((long)(x))", "__builtin_expect_with_probability(x, y, p) ((long)(x))",
    "__builtin_assume_aligned(p, ...) ((void*)(p))", "__builtin_object_size(p, kind) (-1UL)",
    "__builtin_dynamic_object_size(p, kind) (-1UL)", "__builtin_unreachable() ((void)0)",
    "__builtin_prefetch(...) ((void)0)", "__builtin_LINE() __LINE__", "_Static_assert(...)",
    "_Pragma(text)", "__DATE__ \"Jan  1 1970\"", "__TIME__ \"00:00:00\"",
    "__TIMESTAMP__ \"Thu Jan  1 00:00:00 1970\"", "__INCLUDE_LEVEL__ 0",
    "__FILE__ \"/tmp/fusejit-build-000000/module.c\"", "__BASE_FILE__ __FILE__",
    "__FILE_NAME__ \"module.c\""]

/-- The lines of `stddef.h`. -/
def stddefLines : List String :=
  ["typedef unsigned long size_t;", "typedef long ptrdiff_t;", "typedef int wchar_t;",
    "typedef struct \x7b long long a; long double b; \x7d max_align_t;", "#define NULL ((void*)0)",
    "#define offsetof(type, member) __builtin_offsetof(type, member)"]

/-- The lines of `stdint.h`. -/
def stdintLines : List String :=
  ["typedef signed char int8_t;", "typedef unsigned char uint8_t;",
    "typedef signed char int_least8_t;", "typedef unsigned char uint_least8_t;",
    "typedef signed char int_fast8_t;", "typedef unsigned char uint_fast8_t;",
    "typedef short int16_t;", "typedef unsigned short uint16_t;", "typedef short int_least16_t;",
    "typedef unsigned short uint_least16_t;", "typedef long int_fast16_t;",
    "typedef unsigned long uint_fast16_t;", "typedef int int32_t;",
    "typedef unsigned int uint32_t;", "typedef int int_least32_t;",
    "typedef unsigned int uint_least32_t;", "typedef long int_fast32_t;",
    "typedef unsigned long uint_fast32_t;", "typedef long int64_t;",
    "typedef unsigned long uint64_t;", "typedef long int_least64_t;",
    "typedef unsigned long uint_least64_t;", "typedef long int_fast64_t;",
    "typedef unsigned long uint_fast64_t;", "typedef long intptr_t;",
    "typedef unsigned long uintptr_t;", "typedef long intmax_t;",
    "typedef unsigned long uintmax_t;", "#define INT16_C(c) c", "#define INT16_MAX (32767)",
    "#define INT16_MIN (-32767-1)", "#define INT32_C(c) c", "#define INT32_MAX (2147483647)",
    "#define INT32_MIN (-2147483647-1)", "#define INT64_C(c) c ## L",
    "#define INT64_MAX (__INT64_C(9223372036854775807))",
    "#define INT64_MIN (-__INT64_C(9223372036854775807)-1)", "#define INT8_C(c) c",
    "#define INT8_MAX (127)", "#define INT8_MIN (-128)", "#define INTMAX_C(c) c ## L",
    "#define INTMAX_MAX (__INT64_C(9223372036854775807))",
    "#define INTMAX_MIN (-__INT64_C(9223372036854775807)-1)",
    "#define INTPTR_MAX (9223372036854775807L)", "#define INTPTR_MIN (-9223372036854775807L-1)",
    "#define INT_FAST16_MAX (9223372036854775807L)",
    "#define INT_FAST16_MIN (-9223372036854775807L-1)",
    "#define INT_FAST32_MAX (9223372036854775807L)",
    "#define INT_FAST32_MIN (-9223372036854775807L-1)",
    "#define INT_FAST64_MAX (__INT64_C(9223372036854775807))",
    "#define INT_FAST64_MIN (-__INT64_C(9223372036854775807)-1)", "#define INT_FAST8_MAX (127)",
    "#define INT_FAST8_MIN (-128)", "#define INT_LEAST16_MAX (32767)",
    "#define INT_LEAST16_MIN (-32767-1)", "#define INT_LEAST32_MAX (2147483647)",
    "#define INT_LEAST32_MIN (-2147483647-1)",
    "#define INT_LEAST64_MAX (__INT64_C(9223372036854775807))",
    "#define INT_LEAST64_MIN (-__INT64_C(9223372036854775807)-1)", "#define INT_LEAST8_MAX (127)",
    "#define INT_LEAST8_MIN (-128)", "#define PTRDIFF_MAX (9223372036854775807L)",
    "#define PTRDIFF_MIN (-9223372036854775807L-1)", "#define SIG_ATOMIC_MAX (2147483647)",
    "#define SIG_ATOMIC_MIN (-2147483647-1)", "#define SIZE_MAX (18446744073709551615UL)",
    "#define UINT16_C(c) c", "#define UINT16_MAX (65535)", "#define UINT32_C(c) c ## U",
    "#define UINT32_MAX (4294967295U)", "#define UINT64_C(c) c ## UL",
    "#define UINT64_MAX (__UINT64_C(18446744073709551615))", "#define UINT8_C(c) c",
    "#define UINT8_MAX (255)", "#define UINTMAX_C(c) c ## UL",
    "#define UINTMAX_MAX (__UINT64_C(18446744073709551615))",
    "#define UINTPTR_MAX (18446744073709551615UL)",
    "#define UINT_FAST16_MAX (18446744073709551615UL)",
    "#define UINT_FAST32_MAX (18446744073709551615UL)",
    "#define UINT_FAST64_MAX (__UINT64_C(18446744073709551615))", "#define UINT_FAST8_MAX (255)",
    "#define UINT_LEAST16_MAX (65535)", "#define UINT_LEAST32_MAX (4294967295U)",
    "#define UINT_LEAST64_MAX (__UINT64_C(18446744073709551615))", "#define UINT_LEAST8_MAX (255)",
    "#define WCHAR_MAX __WCHAR_MAX__", "#define WCHAR_MIN __WCHAR_MIN__",
    "#define WINT_MAX (4294967295u)", "#define WINT_MIN (0u)"]

/-- The lines of `string.h`. -/
def stringLines : List String :=
  ["typedef unsigned long size_t;", "#define NULL ((void*)0)"]

/-- The lines of `strings.h`. -/
def stringsLines : List String :=
  ["typedef unsigned long size_t;"]

/-- The lines of `stdbool.h`. -/
def stdboolLines : List String :=
  ["#define bool _Bool", "#define true 1", "#define false 0",
    "#define __bool_true_false_are_defined 1"]

/-- The lines of `stdalign.h`. -/
def stdalignLines : List String :=
  ["#define alignas _Alignas", "#define alignof _Alignof", "#define __alignas_is_defined 1",
    "#define __alignof_is_defined 1"]

/-- The lines of `stdnoreturn.h`. -/
def stdnoreturnLines : List String :=
  ["#define noreturn _Noreturn"]

/-- The lines of `assert.h`. -/
def assertLines : List String :=
  ["#define assert(e) ((void)0)", "#define static_assert(...)"]

/-- The lines of `iso646.h`. -/
def iso646Lines : List String :=
  ["#define and &&", "#define and_eq &=", "#define bitand &", "#define bitor |",
    "#define compl ~", "#define not !", "#define not_eq !=", "#define or ||", "#define or_eq |=",
    "#define xor ^", "#define xor_eq ^="]

/-- The lines of `limits.h`. -/
def limitsLines : List String :=
  ["#define CHAR_BIT __CHAR_BIT__", "#define MB_LEN_MAX 16", "#define SCHAR_MIN (-SCHAR_MAX - 1)",
    "#define SCHAR_MAX __SCHAR_MAX__", "#define UCHAR_MAX (SCHAR_MAX * 2 + 1)",
    "#define CHAR_MIN SCHAR_MIN", "#define CHAR_MAX SCHAR_MAX", "#define SHRT_MIN (-SHRT_MAX - 1)",
    "#define SHRT_MAX __SHRT_MAX__", "#define USHRT_MAX (SHRT_MAX * 2 + 1)",
    "#define INT_MIN (-INT_MAX - 1)", "#define INT_MAX __INT_MAX__",
    "#define UINT_MAX (INT_MAX * 2U + 1U)", "#define LONG_MIN (-LONG_MAX - 1L)",
    "#define LONG_MAX __LONG_MAX__", "#define ULONG_MAX (LONG_MAX * 2UL + 1UL)",
    "#define LLONG_MIN (-LLONG_MAX - 1LL)", "#define LLONG_MAX __LONG_LONG_MAX__",
    "#define ULLONG_MAX (LLONG_MAX * 2ULL + 1ULL)", "#define SSIZE_MAX LONG_MAX",
    "#define PATH_MAX 4096", "#define NAME_MAX 255", "#define PIPE_BUF 4096"]

/-- The lines of `float.h`. -/
def floatLines : List String :=
  ["#define FLT_DECIMAL_DIG __FLT_DECIMAL_DIG__", "#define FLT_DIG __FLT_DIG__",
    "#define FLT_EPSILON __FLT_EPSILON__", "#define FLT_MANT_DIG __FLT_MANT_DIG__",
    "#define FLT_MAX_10_EXP __FLT_MAX_10_EXP__", "#define FLT_MAX_EXP __FLT_MAX_EXP__",
    "#define FLT_MAX __FLT_MAX__", "#define FLT_MIN_10_EXP __FLT_MIN_10_EXP__",
    "#define FLT_MIN_EXP __FLT_MIN_EXP__", "#define FLT_MIN __FLT_MIN__",
    "#define FLT_TRUE_MIN __FLT_DENORM_MIN__", "#define FLT_HAS_SUBNORM 1",
    "#define DBL_DECIMAL_DIG __DBL_DECIMAL_DIG__", "#define DBL_DIG __DBL_DIG__",
    "#define DBL_EPSILON __DBL_EPSILON__", "#define DBL_MANT_DIG __DBL_MANT_DIG__",
    "#define DBL_MAX_10_EXP __DBL_MAX_10_EXP__", "#define DBL_MAX_EXP __DBL_MAX_EXP__",
    "#define DBL_MAX __DBL_MAX__", "#define DBL_MIN_10_EXP __DBL_MIN_10_EXP__",
    "#define DBL_MIN_EXP __DBL_MIN_EXP__", "#define DBL_MIN __DBL_MIN__",
    "#define DBL_TRUE_MIN __DBL_DENORM_MIN__", "#define DBL_HAS_SUBNORM 1",
    "#define LDBL_DECIMAL_DIG __LDBL_DECIMAL_DIG__", "#define LDBL_DIG __LDBL_DIG__",
    "#define LDBL_EPSILON __LDBL_EPSILON__", "#define LDBL_MANT_DIG __LDBL_MANT_DIG__",
    "#define LDBL_MAX_10_EXP __LDBL_MAX_10_EXP__", "#define LDBL_MAX_EXP __LDBL_MAX_EXP__",
    "#define LDBL_MAX __LDBL_MAX__", "#define LDBL_MIN_10_EXP __LDBL_MIN_10_EXP__",
    "#define LDBL_MIN_EXP __LDBL_MIN_EXP__", "#define LDBL_MIN __LDBL_MIN__",
    "#define LDBL_TRUE_MIN __LDBL_DENORM_MIN__", "#define LDBL_HAS_SUBNORM 1",
    "#define FLT_RADIX 2", "#define FLT_ROUNDS 1", "#define FLT_EVAL_METHOD 0",
    "#define DECIMAL_DIG __LDBL_DECIMAL_DIG__"]

/-- The lines of `math.h`. -/
def mathLines : List String :=
  ["typedef float float_t;", "typedef double double_t;", "#define M_E 2.7182818284590452354",
    "#define M_LOG2E 1.4426950408889634074", "#define M_LOG10E 0.43429448190325182765",
    "#define M_LN2 0.69314718055994530942", "#define M_LN10 2.30258509299404568402",
    "#define M_PI 3.14159265358979323846", "#define M_PI_2 1.57079632679489661923",
    "#define M_PI_4 0.78539816339744830962", "#define M_1_PI 0.31830988618379067154",
    "#define M_2_PI 0.63661977236758134308", "#define M_2_SQRTPI 1.12837916709551257390",
    "#define M_SQRT2 1.41421356237309504880", "#define M_SQRT1_2 0.70710678118654752440",
    "#define INFINITY (__builtin_inff())", "#define NAN (__builtin_nanf(\"\"))",
    "#define HUGE_VAL (__builtin_huge_val())", "#define HUGE_VALF (__builtin_huge_valf())",
    "#define FP_NAN 0", "#define FP_INFINITE 1", "#define FP_ZERO 2", "#define FP_SUBNORMAL 3",
    "#define FP_NORMAL 4", "#define isnan(x) __builtin_isnan(x)",
    "#define isinf(x) __builtin_isinf_sign(x)", "#define isfinite(x) __builtin_isfinite(x)",
    "#define signbit(x) __builtin_signbit(x)"]

/-- The lines of `stdlib.h`. -/
def stdlibLines : List String :=
  ["typedef unsigned long size_t;", "typedef int wchar_t;",
    "typedef struct \x7b int quot; int rem; \x7d div_t;",
    "typedef struct \x7b long quot; long rem; \x7d ldiv_t;",
    "typedef struct \x7b long long quot; long long rem; \x7d lldiv_t;", "#define NULL ((void*)0)",
    "#define EXIT_SUCCESS 0", "#define EXIT_FAILURE 1", "#define RAND_MAX 2147483647"]

/-- The lines of `stdio.h`. -/
def stdioLines : List String :=
  ["typedef unsigned long size_t;", "typedef struct _IO_FILE FILE;", "typedef long ssize_t;",
    "typedef long off_t;", "#define NULL ((void*)0)", "#define EOF (-1)", "#define BUFSIZ 8192",
    "#define SEEK_SET 0", "#define SEEK_CUR 1", "#define SEEK_END 2", "#define FILENAME_MAX 4096",
    "#define FOPEN_MAX 16", "#define L_tmpnam 20", "#define TMP_MAX 238328"]

/-- The lines of `inttypes.h`. -/
def inttypesLines : List String :=
  ["#include <stdint.h>", "typedef struct \x7b long quot; long rem; \x7d imaxdiv_t;",
    "#define PRId8 \"d\"", "#define PRId16 \"d\"", "#define PRId32 \"d\"", "#define PRId64 \"ld\"",
    "#define PRIdMAX \"ld\"", "#define PRIdPTR \"ld\"", "#define PRIi8 \"i\"",
    "#define PRIi16 \"i\"", "#define PRIi32 \"i\"", "#define PRIi64 \"li\"",
    "#define PRIiMAX \"li\"", "#define PRIiPTR \"li\"", "#define PRIo8 \"o\"",
    "#define PRIo16 \"o\"", "#define PRIo32 \"o\"", "#define PRIo64 \"lo\"",
    "#define PRIoMAX \"lo\"", "#define PRIoPTR \"lo\"", "#define PRIu8 \"u\"",
    "#define PRIu16 \"u\"", "#define PRIu32 \"u\"", "#define PRIu64 \"lu\"",
    "#define PRIuMAX \"lu\"", "#define PRIuPTR \"lu\"", "#define PRIx8 \"x\"",
    "#define PRIx16 \"x\"", "#define PRIx32 \"x\"", "#define PRIx64 \"lx\"",
    "#define PRIxMAX \"lx\"", "#define PRIxPTR \"lx\""]

/-- The lines of `errno.h`. -/
def errnoLines : List String :=
  ["#define EPERM 1", "#define ENOENT 2", "#define EINTR 4", "#define EIO 5", "#define EAGAIN 11",
    "#define ENOMEM 12", "#define EACCES 13", "#define EFAULT 14", "#define EBUSY 16",
    "#define EEXIST 17", "#define EINVAL 22", "#define ENOSPC 28", "#define EDOM 33",
    "#define ERANGE 34"]

/-- The lines of `sys/types.h`. -/
def sysTypesLines : List String :=
  ["typedef unsigned long size_t;", "typedef long ssize_t;", "typedef long off_t;",
    "typedef int pid_t;", "typedef unsigned int uid_t;", "typedef unsigned int gid_t;",
    "typedef unsigned int mode_t;", "typedef unsigned long ino_t;", "typedef unsigned long dev_t;",
    "typedef long time_t;", "typedef signed char int8_t;", "typedef short int16_t;",
    "typedef int int32_t;", "typedef long int64_t;", "typedef unsigned char u_int8_t;",
    "typedef unsigned short u_int16_t;", "typedef unsigned int u_int32_t;",
    "typedef unsigned long u_int64_t;", "typedef unsigned char u_char;",
    "typedef unsigned short u_short;", "typedef unsigned int u_int;",
    "typedef unsigned long u_long;", "typedef unsigned short ushort;",
    "typedef unsigned int uint;", "typedef unsigned long ulong;"]

/-- The lines of `unistd.h`. -/
def unistdLines : List String :=
  ["typedef unsigned long size_t;", "typedef long ssize_t;", "typedef long off_t;",
    "typedef int pid_t;", "typedef unsigned int uid_t;", "typedef unsigned int gid_t;",
    "typedef long intptr_t;", "#define NULL ((void*)0)", "#define STDIN_FILENO 0",
    "#define STDOUT_FILENO 1", "#define STDERR_FILENO 2", "#define SEEK_SET 0",
    "#define SEEK_CUR 1", "#define SEEK_END 2", "#define R_OK 4", "#define W_OK 2",
    "#define X_OK 1", "#define F_OK 0"]

/-- The lines of `time.h`. -/
def timeLines : List String :=
  ["typedef unsigned long size_t;", "typedef long time_t;", "typedef long clock_t;",
    "typedef int clockid_t;", "struct timespec \x7b long tv_sec; long tv_nsec; \x7d;",
    "struct tm \x7b int tm_sec; int tm_min; int tm_hour; int tm_mday; int tm_mon; int tm_year;",
    "int tm_wday; int tm_yday; int tm_isdst; long tm_gmtoff; const char* tm_zone; \x7d;",
    "#define NULL ((void*)0)", "#define CLOCKS_PER_SEC ((clock_t)1000000)",
    "#define CLOCK_REALTIME 0", "#define CLOCK_MONOTONIC 1", "#define TIME_UTC 1"]

/-- The lines of `wchar.h`. -/
def wcharLines : List String :=
  ["typedef unsigned long size_t;", "typedef int wchar_t;", "typedef unsigned int wint_t;",
    "typedef struct \x7b int count; unsigned value; \x7d mbstate_t;", "#define NULL ((void*)0)",
    "#define WEOF (0xffffffffu)", "#define WCHAR_MIN __WCHAR_MIN__",
    "#define WCHAR_MAX __WCHAR_MAX__"]

/-- The lines of `wctype.h`. -/
def wctypeLines : List String :=
  ["typedef unsigned int wint_t;", "typedef unsigned long wctype_t;", "#define WEOF (0xffffffffu)"]

/-- The lines of `uchar.h`. -/
def ucharLines : List String :=
  ["typedef unsigned long size_t;", "typedef unsigned short char16_t;",
    "typedef unsigned int char32_t;"]

/-- The lines of `complex.h`. -/
def complexLines : List String :=
  ["#define complex _Complex"]

/-- The lines of `fenv.h`. -/
def fenvLines : List String :=
  ["#define FE_INVALID 1", "#define FE_DIVBYZERO 4", "#define FE_OVERFLOW 8",
    "#define FE_UNDERFLOW 16", "#define FE_INEXACT 32", "#define FE_ALL_EXCEPT 61",
    "#define FE_TONEAREST 0", "#define FE_DOWNWARD 1024", "#define FE_UPWARD 2048",
    "#define FE_TOWARDZERO 3072"]

/-- The lines of `stdarg.h`. -/
def stdargLines : List String :=
  ["typedef struct \x7b unsigned gp; unsigned fp; void* overflow; void* save; \x7d va_list[1];"]

/-- The lines of `stdatomic.h`. -/
def stdatomicLines : List String :=
  ["#define memory_order_relaxed 0", "#define memory_order_consume 1",
    "#define memory_order_acquire 2", "#define memory_order_release 3",
    "#define memory_order_acq_rel 4", "#define memory_order_seq_cst 5",
    "#define ATOMIC_VAR_INIT(x) (x)", "typedef _Atomic _Bool atomic_bool;",
    "typedef _Atomic char atomic_char;", "typedef _Atomic signed char atomic_schar;",
    "typedef _Atomic unsigned char atomic_uchar;", "typedef _Atomic short atomic_short;",
    "typedef _Atomic unsigned short atomic_ushort;", "typedef _Atomic int atomic_int;",
    "typedef _Atomic unsigned int atomic_uint;", "typedef _Atomic long atomic_long;",
    "typedef _Atomic unsigned long atomic_ulong;", "typedef _Atomic long long atomic_llong;",
    "typedef _Atomic unsigned long long atomic_ullong;",
    "typedef _Atomic unsigned long atomic_size_t;", "typedef _Atomic long atomic_ptrdiff_t;",
    "typedef _Atomic long atomic_intptr_t;", "typedef _Atomic unsigned long atomic_uintptr_t;",
    "typedef _Atomic long atomic_intmax_t;", "typedef _Atomic unsigned long atomic_uintmax_t;"]

/-- The lines of `signal.h`. -/
def signalLines : List String :=
  ["typedef int sig_atomic_t;", "#define SIGHUP 1", "#define SIGINT 2", "#define SIGILL 4",
    "#define SIGABRT 6", "#define SIGFPE 8", "#define SIGKILL 9", "#define SIGSEGV 11",
    "#define SIGTERM 15"]

/-- The lines of `locale.h`. -/
def localeLines : List String :=
  ["#define NULL ((void*)0)", "#define LC_CTYPE 0", "#define LC_NUMERIC 1", "#define LC_TIME 2",
    "#define LC_COLLATE 3", "#define LC_MONETARY 4", "#define LC_ALL 6"]

/-- The lines of `alloca.h`. -/
def allocaLines : List String :=
  ["typedef unsigned long size_t;"]

/-- The lines of `memory.h`. -/
def memoryLines : List String :=
  ["typedef unsigned long size_t;", "#define NULL ((void*)0)"]

/-- The lines of `malloc.h`. -/
def mallocLines : List String :=
  ["typedef unsigned long size_t;", "#define NULL ((void*)0)"]

/-- The headers, each with its lines. -/
def all : List (String × List String) :=
  [("stddef.h", stddefLines), ("stdint.h", stdintLines), ("string.h", stringLines),
    ("strings.h", stringsLines), ("stdbool.h", stdboolLines), ("stdalign.h", stdalignLines),
    ("stdnoreturn.h", stdnoreturnLines), ("assert.h", assertLines), ("iso646.h", iso646Lines),
    ("limits.h", limitsLines), ("float.h", floatLines), ("math.h", mathLines),
    ("stdlib.h", stdlibLines), ("stdio.h", stdioLines), ("inttypes.h", inttypesLines),
    ("errno.h", errnoLines), ("sys/types.h", sysTypesLines), ("unistd.h", unistdLines),
    ("time.h", timeLines), ("wchar.h", wcharLines), ("wctype.h", wctypeLines),
    ("uchar.h", ucharLines), ("complex.h", complexLines), ("ctype.h", []), ("fenv.h", fenvLines),
    ("stdarg.h", stdargLines), ("stdatomic.h", stdatomicLines), ("signal.h", signalLines),
    ("locale.h", localeLines), ("alloca.h", allocaLines), ("memory.h", memoryLines),
    ("malloc.h", mallocLines)]

/-- The lines of a header. -/
def lines? (name : String) : Option (List String) := all.lookup name

end OpFusion.Source.Header
