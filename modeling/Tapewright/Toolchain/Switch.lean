namespace Tapewright.Toolchain

/-! The switches of the C compiler.

They matter as far as they decide whether the compiler succeeds and whether it leaves an
executable behind.  No switch known here changes what the executable does.  The compiler they
belong to is played in the outer layer only.
-/

inductive Switch where
  /-- The executable does the same with or without it: optimization, warnings, debug
  information, macros, search paths. -/
  | harmless
  /-- The text is checked or turned into something else, and nothing is linked. -/
  | unlinked
  /-- A library that linking does not find. -/
  | missingLibrary
  | unknown
deriving DecidableEq, Repr

namespace Switch

/-- What is left of a text behind the text it starts with. -/
def after? (start text : String) : Option String :=
  if start.toList.isPrefixOf text.toList then
    some (String.ofList (text.toList.drop start.length))
  else none

def plain : List String :=
  ["-ansi", "-pedantic", "-pedantic-errors", "-pipe", "-pthread", "-pg", "-p", "-s", "-v", "-w",
    "-static", "-static-libgcc", "-no-pie", "-pie", "-static-pie", "-rdynamic", "-trigraphs", "-C",
    "-CC", "-P", "-H", "-MD", "-MMD", "-save-temps", "-time", "-xc", "--coverage", "--pedantic",
    "--pedantic-errors", "--verbose", "--ansi"]

def unlinking : List String :=
  ["-fsyntax-only", "-c", "-S", "-E", "-M", "-MM", "-r", "-###", "--version", "--help",
    "--target-help"]

/-- Levels of optimization that are no numbers. -/
def optimizationNames : List String :=
  ["", "s", "g", "z", "fast"]

def debugNames : List String :=
  ["", "0", "1", "2", "3", "gdb", "gdb0", "gdb1", "gdb2", "gdb3", "dwarf", "dwarf-2", "dwarf-3",
    "dwarf-4", "dwarf-5", "split-dwarf", "no-split-dwarf", "column-info", "record-gcc-switches",
    "strict-dwarf", "z"]

def standards : List String :=
  ["c89", "c90", "c99", "c9x", "c11", "c1x", "c17", "c18", "c2x", "gnu89", "gnu90", "gnu99",
    "gnu9x", "gnu11", "gnu1x", "gnu17", "gnu18", "gnu2x", "iso9899:1990", "iso9899:199409",
    "iso9899:1999", "iso9899:2011", "iso9899:2017"]

def warnings : List String :=
  ["abi", "absolute-value", "address", "aggregate-return", "aggressive-loop-optimizations", "all",
    "alloc-zero", "alloca", "arith-conversion", "array-bounds", "array-compare", "attributes",
    "bad-function-cast", "bool-compare", "bool-operation", "builtin-declaration-mismatch",
    "c++-compat", "c11-c2x-compat", "c90-c99-compat", "c99-c11-compat", "cast-align",
    "cast-function-type", "cast-qual", "char-subscripts", "clobbered", "comment", "comments",
    "conversion", "cpp", "dangling-else", "dangling-pointer", "date-time",
    "declaration-after-statement", "deprecated", "deprecated-declarations", "designated-init",
    "disabled-optimization", "discarded-qualifiers", "div-by-zero", "double-promotion",
    "duplicate-decl-specifier", "duplicated-branches", "duplicated-cond", "empty-body",
    "endif-labels", "enum-compare", "enum-conversion", "error", "extra", "fatal-errors",
    "float-conversion", "float-equal", "format", "format-extra-args", "format-nonliteral",
    "format-overflow", "format-security", "format-signedness", "format-truncation", "format-y2k",
    "frame-address", "free-nonheap-object", "ignored-attributes", "ignored-qualifiers", "implicit",
    "implicit-fallthrough", "implicit-function-declaration", "implicit-int",
    "incompatible-pointer-types", "infinite-recursion", "init-self", "inline", "int-conversion",
    "int-in-bool-context", "int-to-pointer-cast", "invalid-pch", "jump-misses-init",
    "logical-not-parentheses", "logical-op", "long-long", "main", "maybe-uninitialized",
    "memset-elt-size", "memset-transposed-args", "misleading-indentation", "missing-attributes",
    "missing-braces", "missing-declarations", "missing-field-initializers",
    "missing-format-attribute", "missing-include-dirs", "missing-noreturn",
    "missing-parameter-type", "missing-prototypes", "multichar", "multistatement-macros",
    "narrowing", "nested-externs", "null-dereference", "old-style-declaration",
    "old-style-definition", "openmp-simd", "overflow", "overlength-strings", "override-init",
    "packed", "padded", "parentheses", "pedantic", "pointer-arith", "pointer-compare",
    "pointer-sign", "pointer-to-int-cast", "pragmas", "psabi", "redundant-decls", "restrict",
    "return-local-addr", "return-type", "scalar-storage-order", "sequence-point", "shadow",
    "shift-count-negative", "shift-count-overflow", "shift-negative-value", "shift-overflow",
    "sign-compare", "sign-conversion", "sizeof-array-argument", "sizeof-pointer-div",
    "sizeof-pointer-memaccess", "stack-protector", "strict-aliasing", "strict-overflow",
    "strict-prototypes", "string-compare", "stringop-overflow", "stringop-truncation",
    "suggest-attribute=const", "suggest-attribute=noreturn", "suggest-attribute=pure", "switch",
    "switch-bool", "switch-default", "switch-enum", "switch-unreachable", "sync-nand",
    "system-headers", "tautological-compare", "traditional", "traditional-conversion",
    "trampolines", "trigraphs", "type-limits", "undef", "uninitialized", "unknown-pragmas",
    "unreachable-code", "unsafe-loop-optimizations", "unsuffixed-float-constants", "unused",
    "unused-but-set-parameter", "unused-but-set-variable", "unused-const-variable",
    "unused-function", "unused-label", "unused-local-typedefs", "unused-macros",
    "unused-parameter", "unused-result", "unused-value", "unused-variable", "use-after-free",
    "varargs", "variadic-macros", "vector-operation-performance", "vla", "volatile-register-var",
    "write-strings", "zero-length-bounds"]

/-- Features that can be turned on, and off with `no-` in front. -/
def features : List String :=
  ["PIC", "PIE", "aggressive-loop-optimizations", "align-functions", "align-jumps",
    "align-labels", "align-loops", "asm", "associative-math", "asynchronous-unwind-tables",
    "auto-inc-dec", "branch-count-reg", "branch-probabilities", "builtin", "caller-saves",
    "code-hoisting", "combine-stack-adjustments", "common", "compare-elim", "conserve-stack",
    "cprop-registers", "crossjumping", "cse-follow-jumps", "cx-limited-range", "data-sections",
    "dce", "defer-pop", "delete-null-pointer-checks", "devirtualize", "diagnostics-color",
    "diagnostics-show-caret", "diagnostics-show-option", "dse", "early-inlining", "exceptions",
    "expensive-optimizations", "fast-math", "fat-lto-objects", "finite-loops", "finite-math-only",
    "float-store", "forward-propagate", "freestanding", "function-cse", "function-sections",
    "gcse", "gcse-after-reload", "gcse-las", "gcse-lm", "gcse-sm", "gnu-tm", "gnu89-inline",
    "graphite", "graphite-identity", "guess-branch-probability", "hoist-adjacent-loads", "hosted",
    "ident", "if-conversion", "if-conversion2", "indirect-inlining", "inline", "inline-functions",
    "inline-functions-called-once", "inline-small-functions", "ipa-cp", "ipa-cp-clone", "ipa-icf",
    "ipa-modref", "ipa-profile", "ipa-pta", "ipa-pure-const", "ipa-ra", "ipa-reference",
    "ipa-sra", "ipa-vrp", "isolate-erroneous-paths-attribute",
    "isolate-erroneous-paths-dereference", "ivopts", "jump-tables", "keep-inline-functions",
    "keep-static-consts", "keep-static-functions", "lax-vector-conversions", "lifetime-dse",
    "live-range-shrinkage", "loop-block", "loop-interchange", "loop-nest-optimize",
    "loop-parallelize-all", "loop-strip-mine", "loop-unroll-and-jam", "lra-remat", "lto",
    "math-errno", "merge-all-constants", "merge-constants", "modulo-sched",
    "move-loop-invariants", "ms-extensions", "non-call-exceptions", "omit-frame-pointer",
    "openacc", "openmp", "openmp-simd", "optimize-sibling-calls", "optimize-strlen",
    "pack-struct", "partial-inlining", "peel-loops", "peephole", "peephole2", "pic", "pie",
    "plan9-extensions", "plt", "predictive-commoning", "prefetch-loop-arrays",
    "printf-return-value", "profile-arcs", "profile-generate", "profile-use", "profile-values",
    "reciprocal-math", "record-gcc-switches", "ree", "rename-registers", "reorder-blocks",
    "reorder-blocks-and-partition", "reorder-functions", "rerun-cse-after-loop", "rounding-math",
    "sanitize=address", "sanitize=undefined", "sched-interblock", "sched-pressure", "sched-spec",
    "schedule-insns", "schedule-insns2", "section-anchors", "selective-scheduling",
    "semantic-interposition", "short-enums", "shrink-wrap", "signaling-nans", "signed-bitfields",
    "signed-char", "signed-zeros", "single-precision-constant", "split-loops", "split-paths",
    "split-stack", "split-wide-types", "ssa-backprop", "ssa-phiopt", "stack-check",
    "stack-clash-protection", "stack-protector", "store-merging", "strict-aliasing",
    "strict-overflow", "strict-volatile-bitfields", "sync-libcalls", "test-coverage",
    "thread-jumps", "time-report", "toplevel-reorder", "tracer", "trampolines", "trapping-math",
    "trapv", "tree-bit-ccp", "tree-builtin-call-dce", "tree-ccp", "tree-ch", "tree-coalesce-vars",
    "tree-copy-prop", "tree-dce", "tree-dominator-opts", "tree-dse", "tree-forwprop", "tree-fre",
    "tree-loop-distribute-patterns", "tree-loop-distribution", "tree-loop-if-convert",
    "tree-loop-im", "tree-loop-ivcanon", "tree-loop-linear", "tree-loop-optimize",
    "tree-loop-vectorize", "tree-partial-pre", "tree-phiprop", "tree-pre", "tree-pta",
    "tree-reassoc", "tree-scev-cprop", "tree-sink", "tree-slp-vectorize", "tree-slsr", "tree-sra",
    "tree-switch-conversion", "tree-tail-merge", "tree-ter", "tree-vectorize", "tree-vrp",
    "unit-at-a-time", "unroll-all-loops", "unroll-loops", "unsafe-math-optimizations",
    "unsigned-bitfields", "unsigned-char", "unswitch-loops", "unwind-tables", "use-linker-plugin",
    "var-tracking", "variable-expansion-in-unroller", "vect-cost-model", "verbose-asm",
    "version-loops-for-strides", "vpt", "web", "whole-program", "working-directory", "wrapv",
    "wrapv-pointer", "zero-initialized-in-bss"]

/-- Features that can only be turned on. -/
def lastingFeatures : List String :=
  ["cf-protection", "stack-protector-all", "stack-protector-explicit", "stack-protector-strong",
    "stack-usage", "visibility=default", "visibility=hidden"]

/-- Properties of the machine that are there or harmless. -/
def machineNames : List String :=
  ["64", "aes", "arch=core2", "arch=haswell", "arch=native", "arch=nocona", "arch=sandybridge",
    "arch=skylake", "arch=x86-64", "arch=x86-64-v2", "arch=x86-64-v3", "avx", "avx2", "bmi",
    "bmi2", "cmodel=large", "cmodel=medium", "cmodel=small", "cx16", "f16c", "fma",
    "fpmath=sse", "lzcnt", "mmx", "movbe", "no-avx", "no-avx2", "no-red-zone", "no-sse4",
    "pclmul", "popcnt", "red-zone", "sahf", "sse", "sse2", "sse3", "sse4", "sse4.1", "sse4.2",
    "ssse3", "stackrealign", "tune=core2", "tune=generic", "tune=haswell", "tune=intel",
    "tune=native", "tune=sandybridge", "tune=skylake", "vzeroupper"]

def libraries : List String :=
  ["m", "c", "dl", "gcc", "pthread", "rt", "util", "crypt", "resolv"]

def linkerNames : List String :=
  ["-s", "-S", "-x", "-O1", "-z,now", "-z,relro", "-z,noexecstack", "--as-needed",
    "--no-as-needed", "--gc-sections", "--strip-all", "--build-id", "--hash-style=gnu",
    "-rpath,.", "-Bsymbolic"]

def isMacroName (text : List Char) : Bool :=
  match text with
  | [] => false
  | first :: rest =>
      (first.isAlpha || first == '_') && rest.all fun c => c.isAlphanum || c == '_'

def ofMacro (text : String) : Switch :=
  if isMacroName (text.toList.takeWhile (· != '=')) then .harmless else .unknown

def ofLibrary (name : String) : Switch :=
  if name ∈ libraries then .harmless else .missingLibrary

/-- A warning by name.  Turning off a warning that does not exist is no mistake. -/
def ofWarning (name : String) : Switch :=
  if name = "" ∨ (after? "no-" name).isSome ∨ name ∈ warnings then .harmless
  else
    match after? "error=" name, after? "l," name with
    | some warning, _ => if warning ∈ warnings then .harmless else .unknown
    | none, some linkerName => if linkerName ∈ linkerNames then .harmless else .unknown
    | none, none => .unknown

def ofFeature (name : String) : Switch :=
  let positive := (after? "no-" name).getD name
  if positive ∈ features ∨ name ∈ lastingFeatures then .harmless else .unknown

def ofOptimization (name : String) : Switch :=
  if name ∈ optimizationNames ∨ name.toList.all Char.isDigit then .harmless else .unknown

def families : List (String × (String → Switch)) :=
  let oneOf (names : List String) (name : String) : Switch :=
    if name ∈ names then .harmless else .unknown
  [("-std=", oneOf standards), ("--std=", oneOf standards), ("-D", ofMacro), ("-U", ofMacro),
    ("-I", fun _ => .harmless), ("-L", fun _ => .harmless), ("-B", fun _ => .harmless),
    ("-l", ofLibrary), ("-W", ofWarning), ("-f", ofFeature), ("-m", oneOf machineNames),
    ("-O", ofOptimization), ("-g", oneOf debugNames)]

def ofWord (word : String) : Switch :=
  if word ∈ unlinking then .unlinked
  else if word ∈ plain then .harmless
  else
    match families.findSome? fun family => (after? family.1 word).map family.2 with
    | some switch => switch
    | none => .unknown

def ofPair? (word value : String) : Option Switch :=
  if word = "-D" ∨ word = "-U" then some (ofMacro value)
  else if word ∈ ["-I", "-L", "-isystem", "-iquote", "-idirafter"] then some .harmless
  else if word = "-l" then some (ofLibrary value)
  else if word = "-x" then some (if value = "c" then .harmless else .unknown)
  else if word = "-o" then some .harmless
  else none

def takesNext (word : String) : Bool :=
  (ofPair? word "").isSome

/-- The switches of a command line.  A value that is missing at the end is taken from
what the caller adds, which is then no longer understood. -/
def ofWords : List String → List Switch
  | [] => []
  | [word] => if takesNext word then [.unknown] else [ofWord word]
  | word :: value :: rest =>
      match ofPair? word value with
      | some switch => switch :: ofWords rest
      | none => ofWord word :: ofWords (value :: rest)

end Switch

end Tapewright.Toolchain
