import OranAdapt.PythonSyntax
import OranAdapt.Store

/-!
# The sandbox scan

`sandbox.security`: the visitor that rejects generated code before it runs,
and what the nodes of a program make it do. The visitor looks at five node
classes; a class pattern's keywords and the calls a decorator or a metaclass
stands for are in none of them.
-/

namespace OranAdapt

open PythonSyntax
open PythonSyntax.Node (Within visit_eq visit_eq_nil within_iff)

/-! ## What is forbidden -/

def allowedImportRoots : List String := ["math", "json", "numpy", "pandas", "sklearn", "xgboost", "torch"]

def forbiddenNames : List String :=
  ["eval", "exec", "compile", "__import__", "open", "input", "globals", "locals", "vars", "getattr", "setattr", "delattr",
    "breakpoint", "exit", "quit", "memoryview", "help", "__builtins__", "__loader__", "__spec__"]

def forbiddenAttrs : List String :=
  ["__globals__", "__builtins__", "__subclasses__", "__bases__", "__mro__", "__base__", "__class__", "__import__",
    "__loader__", "__code__", "__closure__", "__getattribute__", "__reduce__", "__reduce_ex__", "__dict__", "__getattr__",
    "__setattr__", "__self__", "__func__", "__spec__",
    "gi_frame", "gi_code", "cr_frame", "cr_code", "ag_frame", "ag_code", "tb_frame", "tb_next", "f_globals", "f_locals",
    "f_builtins", "f_back", "f_code",
    "format", "format_map",
    "os", "sys", "subprocess", "shutil", "socket", "builtins", "importlib", "ctypes", "ctypeslib", "pickle", "marshal",
    "multiprocessing", "threading", "signal", "pathlib", "io", "hub", "cpp_extension", "system", "popen",
    "load", "save", "savez", "savez_compressed", "fromfile", "tofile", "memmap", "loadtxt", "savetxt", "genfromtxt",
    "load_library", "load_model", "save_model", "compile", "to_pickle", "to_csv", "to_json", "to_parquet", "to_feather",
    "to_hdf", "to_excel", "to_sql", "to_stata", "to_orc", "to_html", "to_xml", "to_latex", "to_markdown", "to_clipboard"]

def forbiddenAttrPrefixes : List String := ["read_", "fetch_"]

def forbiddenCallsWithArgs : List String := ["eval", "query"]

def forbiddenAttr (name : String) : Bool :=
  name ∈ forbiddenAttrs || forbiddenAttrPrefixes.any fun p => p.toList.isPrefixOf name.toList

def moduleParts (module : String) : String × List String :=
  match (module.toList.splitOn '.').map String.ofList with
  | root :: components => (root, components)
  | [] => ("", [])

/-- A module outside the allowed roots, or reached through a forbidden component. -/
def forbiddenModule (module : String) : Bool :=
  (moduleParts module).1 ∉ allowedImportRoots || (moduleParts module).2.any forbiddenAttr

/-! ## The visitor -/

/-- `_check_module`; both of its tests report the same text. -/
def checkModule (module : String) : List String :=
  if forbiddenModule module then ["disallowed import: " ++ module] else []

/-- What the visitor's method of a node's class reports; the other classes are
only traversed. -/
def violations : Node → List String
  | .import_ names => names.flatMap fun a => checkModule a.name
  | .importFrom module names level =>
    (if level ≠ 0 then ["disallowed relative import"] else []) ++ checkModule (module.getD "") ++
      names.flatMap fun a =>
        if a.name = "*" ∨ forbiddenAttr a.name = true ∨ a.name ∈ forbiddenNames then
          ["disallowed import: " ++ module.getD "None" ++ "." ++ a.name]
        else []
  | .name id _ => if id ∈ forbiddenNames then ["disallowed name: " ++ id] else []
  | .attribute _ attr _ => if forbiddenAttr attr then ["disallowed attribute access: " ++ attr] else []
  | .call (.attribute _ attr _) args keywords =>
    if attr ∈ forbiddenCallsWithArgs ∧ ¬(args.isEmpty && keywords.isEmpty) then
      ["disallowed string-evaluating call: " ++ attr ++ "(...)"]
    else []
  | _ => []

def unsafeCodeError (message : String) (context : Context) : AdaptationError :=
  ⟨.other "UNSAFE_CODE_REJECTED", message, context⟩

def ErrorClass.isSyntaxError : ErrorClass → Bool
  | python name => name ∈ ["SyntaxError", "IndentationError", "TabError"]
  | _ => false

/-- The interpreter the scan runs in: `ast.parse`, and the trees whose visit
goes past the recursion limit. -/
structure Interpreter where
  parse : String → Except AdaptationError Node
  tooDeep : Node → Bool

def checkCodeSafety (python : Interpreter) (code : String) : Except AdaptationError Unit :=
  match python.parse code with
  | .error e =>
    .error (if e.cls.isSyntaxError then
        unsafeCodeError "generated code is not valid Python" [("cause", .str e.message)]
      else e)
  | .ok tree =>
    if python.tooDeep tree then .error (pythonError "RecursionError")
    else if tree.visit violations = [] then .ok ()
    else .error (unsafeCodeError "generated code failed the security scan" [("violations", .strs (tree.visit violations))])

/-! ## What a program does -/

/-- What the claim of the scan is about: a thing a node makes the program do. -/
inductive Use where
  | lookup (attr : String)
  | load (name : String)
  | import_ (module : String)
  | importRelative
  | importStar
  /-- a call, with some argument, of what an attribute holds -/
  | callAttr (attr : String)
deriving DecidableEq, Repr

def Use.forbidden : Use → Bool
  | lookup attr => forbiddenAttr attr
  | load name => name ∈ forbiddenNames
  | import_ module => forbiddenModule module
  | importRelative | importStar => true
  | callAttr attr => attr ∈ forbiddenCallsWithArgs

def callOf : Node → List Use
  | .attribute _ attr _ => [.callAttr attr]
  | _ => []

def metaclassOf : Node → List Node
  | .keyword (some "metaclass") m => [m]
  | _ => []

/-- What a definition calls with what it defines: its decorators, and the metaclass of a class. -/
def appliedBy : Node → List Node
  | .functionDef _ _ _ decoratorList _ | .asyncFunctionDef _ _ _ decoratorList _ => decoratorList
  | .classDef _ _ keywords _ decoratorList => decoratorList ++ keywords.flatMap metaclassOf
  | _ => []

/-- What the node itself makes the program do, its children apart. -/
def uses : Node → List Use
  | .attribute _ attr _ => [.lookup attr]
  | .matchClass _ _ kwdAttrs _ => kwdAttrs.map .lookup
  | .name id .load => [.load id]
  -- an augmented assignment reads its target
  | .augAssign (.name id _) _ => [.load id]
  | .import_ names => names.map fun a => .import_ a.name
  | .importFrom module names level =>
    (if level ≠ 0 then .importRelative else .import_ (module.getD "")) ::
      names.map fun a => if a.name = "*" then .importStar else .lookup a.name
  | .call func args keywords => if args.isEmpty && keywords.isEmpty then [] else callOf func
  | n => (appliedBy n).flatMap callOf

/-- No node, at any depth, makes the program do a forbidden thing. -/
def Safe (tree : Node) : Prop := ∀ n, Within n tree → ∀ u ∈ uses n, u.forbidden = false

/-- The fields the visitor does not look at name nothing forbidden. -/
structure PlainlySafe (tree : Node) : Prop where
  patterns : ∀ cls patterns kwdAttrs kwdPatterns, Within (.matchClass cls patterns kwdAttrs kwdPatterns) tree →
    ∀ attr ∈ kwdAttrs, forbiddenAttr attr = false
  applied : ∀ n, Within n tree → ∀ value attr ctx, .attribute value attr ctx ∈ appliedBy n →
    attr ∉ forbiddenCallsWithArgs

/-! ## What the scan covers -/

theorem accepted_reports {python : Interpreter} {code : String} {tree : Node} (hparse : python.parse code = .ok tree)
    (h : checkCodeSafety python code = .ok ()) {n : Node} (hn : Within n tree) : violations n = [] := by
  unfold checkCodeSafety at h
  rw [hparse] at h
  dsimp only at h
  split at h
  · cases h
  · split at h
    · rename_i hv
      exact (visit_eq_nil violations).mp hv n hn
    · cases h

attribute [local simp] violations uses in
theorem forbiddenAttr_of_attribute {value : Node} {attr : String} {ctx : ExprContext}
    (h : violations (.attribute value attr ctx) = []) : forbiddenAttr attr = false := by
  simp only [violations] at h
  by_cases ha : forbiddenAttr attr = true
  · rw [if_pos ha] at h
    cases h
  · simpa using ha

theorem allowed_of_name {id : String} {ctx : ExprContext} (h : violations (.name id ctx) = []) :
    (Use.load id).forbidden = false := by
  simp only [violations] at h
  by_cases hid : id ∈ forbiddenNames
  · rw [if_pos hid] at h
    cases h
  · exact decide_eq_false hid

theorem forbiddenModule_of_check {module : String} (h : checkModule module = []) : forbiddenModule module = false := by
  unfold checkModule at h
  by_cases hm : forbiddenModule module = true
  · rw [if_pos hm] at h
    cases h
  · simpa using hm

theorem allowed_of_import {names : List Alias} (h : violations (.import_ names) = []) :
    ∀ u ∈ uses (.import_ names), u.forbidden = false := by
  intro u hu
  simp only [violations, List.flatMap_eq_nil_iff] at h
  simp only [uses, List.mem_map] at hu
  obtain ⟨a, ha, rfl⟩ := hu
  exact forbiddenModule_of_check (h a ha)

theorem allowed_of_importFrom {module : Option String} {names : List Alias} {level : Nat}
    (h : violations (.importFrom module names level) = []) :
    ∀ u ∈ uses (.importFrom module names level), u.forbidden = false := by
  simp only [violations, List.append_eq_nil_iff, List.flatMap_eq_nil_iff] at h
  obtain ⟨⟨hlevel, hmodule⟩, hnames⟩ := h
  intro u hu
  simp only [uses, List.mem_cons, List.mem_map] at hu
  rcases hu with rfl | ⟨a, ha, rfl⟩
  · by_cases hl : level = 0
    · rw [if_neg (not_not.mpr hl)]
      exact forbiddenModule_of_check hmodule
    · rw [if_pos hl] at hlevel
      cases hlevel
  · by_cases ha' : a.name = "*" ∨ forbiddenAttr a.name = true ∨ a.name ∈ forbiddenNames
    · have hname := hnames a ha
      rw [if_pos ha'] at hname
      cases hname
    · rw [not_or, not_or] at ha'
      rw [if_neg ha'.1]
      simpa [Use.forbidden] using ha'.2.1

theorem allowed_callOf {func : Node} :
    (∀ u ∈ callOf func, u.forbidden = false) ↔
      ∀ value attr ctx, func = .attribute value attr ctx → attr ∉ forbiddenCallsWithArgs := by
  unfold callOf
  split
  · simp [Use.forbidden]
  · rename_i hf
    simp only [List.not_mem_nil, false_implies, implies_true, true_iff]
    intro value attr ctx h
    exact absurd h (hf value attr ctx)

theorem allowed_of_call {func : Node} {args keywords : List Node} (h : violations (.call func args keywords) = []) :
    ∀ u ∈ uses (.call func args keywords), u.forbidden = false := by
  simp only [uses]
  by_cases hargs : (args.isEmpty && keywords.isEmpty) = true
  · simp [hargs]
  · rw [if_neg hargs, allowed_callOf]
    rintro value attr ctx rfl hattr
    simp only [violations] at h
    rw [if_pos ⟨hattr, hargs⟩] at h
    cases h

theorem allowed_appliedBy {n : Node} :
    (∀ u ∈ (appliedBy n).flatMap callOf, u.forbidden = false) ↔
      ∀ value attr ctx, .attribute value attr ctx ∈ appliedBy n → attr ∉ forbiddenCallsWithArgs := by
  constructor
  · intro h value attr ctx hm
    have hf : ∀ u ∈ callOf (.attribute value attr ctx), u.forbidden = false :=
      fun u hu => h u (List.mem_flatMap.mpr ⟨_, hm, hu⟩)
    exact allowed_callOf.mp hf value attr ctx rfl
  · intro h u hu
    obtain ⟨func, hm, hu⟩ := List.mem_flatMap.mp hu
    refine allowed_callOf.mpr ?_ u hu
    rintro value attr ctx rfl
    exact h value attr ctx hm

/-- Where the visitor reports nothing, what is left is what it does not look at. -/
theorem safe_of_no_violations {tree : Node} (hv : ∀ n, Within n tree → violations n = []) (h : PlainlySafe tree) :
    Safe tree := by
  intro n hn
  have hvn := hv n hn
  cases n with
  | «attribute» value attr ctx => simpa [uses, Use.forbidden] using forbiddenAttr_of_attribute hvn
  | matchClass cls patterns kwdAttrs kwdPatterns =>
    simpa [uses, Use.forbidden] using h.patterns cls patterns kwdAttrs kwdPatterns hn
  | name id ctx =>
    cases ctx with
    | load => simpa [uses] using allowed_of_name hvn
    | store => simp [uses, appliedBy]
    | del => simp [uses, appliedBy]
  | augAssign target value =>
    cases target with
    | name id ctx =>
      have hid : violations (.name id ctx) = [] := hv _ (.of_child (by simp [Node.children]) hn)
      simpa [uses] using allowed_of_name hid
    | _ => simp [uses, appliedBy]
  | import_ names => exact allowed_of_import hvn
  | importFrom module names level => exact allowed_of_importFrom hvn
  | call func args keywords => exact allowed_of_call hvn
  | _ => exact allowed_appliedBy.mpr (h.applied _ hn)

theorem appliedBy_uses {n : Node} {u : Use} (h : u ∈ (appliedBy n).flatMap callOf) : u ∈ uses n := by
  cases n with
  | functionDef | asyncFunctionDef | classDef => exact h
  | _ => simp [appliedBy] at h

theorem plainlySafe_of_safe {tree : Node} (h : Safe tree) : PlainlySafe tree where
  patterns _ _ _ _ hn attr hattr := h _ hn (.lookup attr) (List.mem_map.mpr ⟨attr, hattr, rfl⟩)
  applied n hn := allowed_appliedBy.mp fun u hu => h n hn u (appliedBy_uses hu)

/-- An accepted program does nothing forbidden if and only if the keywords of its class
patterns, its decorators and its metaclasses do not. -/
theorem scan_covers {python : Interpreter} {code : String} {tree : Node} (hparse : python.parse code = .ok tree)
    (h : checkCodeSafety python code = .ok ()) : Safe tree ↔ PlainlySafe tree := by
  constructor
  · exact plainlySafe_of_safe
  · exact safe_of_no_violations fun n hn => accepted_reports hparse h hn

/-! ## A class pattern reads what it names -/

def objectPattern (attr : String) : Node :=
  .module [.match_ (.name "X" .load)
    [.matchCase (.matchClass (.name "object" .load) [] [attr] [.matchAs none (some "c")]) none [.pass]]]

/-- An interpreter whose parser knows two programs, which differ in the attribute the pattern reads. -/
def patternPython : Interpreter where
  parse code :=
    if code = "match X:\n case object(__class__=c): pass" then .ok (objectPattern "__class__")
    else if code = "match X:\n case object(shape=c): pass" then .ok (objectPattern "shape")
    else .error (pythonError "SyntaxError")
  tooDeep _ := false

theorem objectPattern_unreported (attr : String) : (objectPattern attr).visit violations = [] := by
  have hX : "X" ∉ forbiddenNames := by decide
  have hobject : "object" ∉ forbiddenNames := by decide
  simp [objectPattern, visit_eq, Node.children, violations, hX, hobject]

theorem objectPattern_accepted (code attr : String) (h : patternPython.parse code = .ok (objectPattern attr)) :
    checkCodeSafety patternPython code = .ok () := by
  have hdeep : patternPython.tooDeep (objectPattern attr) = false := rfl
  simp [checkCodeSafety, h, hdeep, objectPattern_unreported]

theorem objectPattern_applied {attr : String} {n : Node} (h : Within n (objectPattern attr)) : appliedBy n = [] := by
  simp only [objectPattern, within_iff, visit_eq, Node.children, List.append_nil, List.flatMap_cons, List.flatMap_nil,
    Option.toList_none, List.nil_append, List.cons_append, List.mem_cons, List.not_mem_nil, or_false] at h
  rcases h with rfl | rfl | rfl | rfl | rfl | rfl | rfl | rfl <;> rfl

theorem objectPattern_plainlySafe : PlainlySafe (objectPattern "shape") where
  patterns cls patterns kwdAttrs kwdPatterns h attr hattr := by
    simp [objectPattern, within_iff, visit_eq, Node.children] at h
    obtain ⟨-, -, rfl, -⟩ := h
    rw [List.mem_singleton.mp hattr]
    decide
  applied n h value attr ctx hm := by
    rw [objectPattern_applied h] at hm
    cases hm

theorem scan_covers_shape : Safe (objectPattern "shape") :=
  have hparse : patternPython.parse "match X:\n case object(shape=c): pass" = .ok (objectPattern "shape") := by
    simp [patternPython]
  (scan_covers hparse (objectPattern_accepted _ _ hparse)).mpr objectPattern_plainlySafe

/-- The scan accepts the program that reads `__class__` by a class pattern. -/
theorem class_pattern_unseen :
    patternPython.parse "match X:\n case object(__class__=c): pass" = .ok (objectPattern "__class__") ∧
      checkCodeSafety patternPython "match X:\n case object(__class__=c): pass" = .ok () ∧
      ¬Safe (objectPattern "__class__") := by
  have hparse : patternPython.parse "match X:\n case object(__class__=c): pass" = .ok (objectPattern "__class__") := by
    simp [patternPython]
  refine ⟨hparse, objectPattern_accepted _ _ hparse, fun h => ?_⟩
  have hin : Within (.matchClass (.name "object" .load) [] ["__class__"] [.matchAs none (some "c")])
      (objectPattern "__class__") := by
    simp [objectPattern, within_iff, visit_eq, Node.children]
  have hclass : forbiddenAttr "__class__" = false := h _ hin (.lookup "__class__") (by simp [uses])
  revert hclass
  decide

end OranAdapt
