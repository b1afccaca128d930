/-
# Keywords

A reserved word is a keyword wherever it stands.  A contextual word is one only in certain
declarations, and elsewhere it may name a thing.  The main facts say that the spelling tells the
keywords apart and that looking a spelling up gives its keyword back.
-/

namespace ExprFront

/-! ## The two classes of words -/

/-- Words that are keywords wherever they stand. -/
inductive ReservedWord where
  | kwLet | kwVar | kwFunc | kwInout | kwIn | kwReturn | kwIf | kwElse | kwAs | kwIs
  | kwClass | kwStruct | kwEnum | kwProtocol | kwImport | kwTry | kwThrow
  deriving DecidableEq, Repr

/-- Words that may also be names. -/
inductive ContextualWord where
  | kwGet | kwSet | kwWillSet | kwDidSet | kwMutating | kwNonmutating | kwLazy | kwWeak
  | kwUnowned | kwOptional | kwRequired | kwOverride | kwFinal | kwConvenience | kwDynamic
  | kwInfix | kwPrefix | kwPostfix | kwLeft | kwRight | kwOpen
  deriving DecidableEq, Repr

/-- The source text of a reserved word. -/
def ReservedWord.spelling : ReservedWord → String
  | .kwLet => "let"
  | .kwVar => "var"
  | .kwFunc => "func"
  | .kwInout => "inout"
  | .kwIn => "in"
  | .kwReturn => "return"
  | .kwIf => "if"
  | .kwElse => "else"
  | .kwAs => "as"
  | .kwIs => "is"
  | .kwClass => "class"
  | .kwStruct => "struct"
  | .kwEnum => "enum"
  | .kwProtocol => "protocol"
  | .kwImport => "import"
  | .kwTry => "try"
  | .kwThrow => "throw"

/-- The source text of a contextual word. -/
def ContextualWord.spelling : ContextualWord → String
  | .kwGet => "get"
  | .kwSet => "set"
  | .kwWillSet => "willSet"
  | .kwDidSet => "didSet"
  | .kwMutating => "mutating"
  | .kwNonmutating => "nonmutating"
  | .kwLazy => "lazy"
  | .kwWeak => "weak"
  | .kwUnowned => "unowned"
  | .kwOptional => "optional"
  | .kwRequired => "required"
  | .kwOverride => "override"
  | .kwFinal => "final"
  | .kwConvenience => "convenience"
  | .kwDynamic => "dynamic"
  | .kwInfix => "infix"
  | .kwPrefix => "prefix"
  | .kwPostfix => "postfix"
  | .kwLeft => "left"
  | .kwRight => "right"
  | .kwOpen => "open"

/-! ## Keywords -/

/-- A keyword of either class. -/
inductive Keyword where
  | reserved (word : ReservedWord)
  | contextual (word : ContextualWord)
  deriving DecidableEq, Repr

namespace Keyword

/-- The source text of a keyword. -/
def spelling : Keyword → String
  | .reserved word => word.spelling
  | .contextual word => word.spelling

/-- Whether the keyword may also be a name. -/
def isContextual : Keyword → Bool
  | .reserved _ => false
  | .contextual _ => true

/-- What listings call the keyword: its spelling with a capital first letter. -/
def name (k : Keyword) : String := k.spelling.capitalize

/-- Every keyword, the reserved ones first. -/
def all : List Keyword :=
  [.reserved .kwLet, .reserved .kwVar, .reserved .kwFunc, .reserved .kwInout, .reserved .kwIn,
    .reserved .kwReturn, .reserved .kwIf, .reserved .kwElse, .reserved .kwAs, .reserved .kwIs,
    .reserved .kwClass, .reserved .kwStruct, .reserved .kwEnum, .reserved .kwProtocol,
    .reserved .kwImport, .reserved .kwTry, .reserved .kwThrow,
    .contextual .kwGet, .contextual .kwSet, .contextual .kwWillSet, .contextual .kwDidSet,
    .contextual .kwMutating, .contextual .kwNonmutating, .contextual .kwLazy,
    .contextual .kwWeak, .contextual .kwUnowned, .contextual .kwOptional,
    .contextual .kwRequired, .contextual .kwOverride, .contextual .kwFinal,
    .contextual .kwConvenience, .contextual .kwDynamic, .contextual .kwInfix,
    .contextual .kwPrefix, .contextual .kwPostfix, .contextual .kwLeft, .contextual .kwRight,
    .contextual .kwOpen]

/-- The list of keywords is complete. -/
theorem mem_all (k : Keyword) : k ∈ all := by
  cases k with
  | reserved word => cases word <;> decide
  | contextual word => cases word <;> decide

/-- The keyword that the word spells, if it spells one. -/
def ofWord? (word : String) : Option Keyword :=
  all.find? fun k => k.spelling == word

/-- A keyword that is found for a word is spelled like it. -/
theorem spelling_of_ofWord? {word : String} {k : Keyword} (h : ofWord? word = some k) :
    k.spelling = word := by
  simpa using List.find?_some h

/-- **Spellings and keywords correspond.**  Looking a keyword's spelling up gives it back. -/
theorem ofWord?_spelling (k : Keyword) : ofWord? k.spelling = some k := by
  cases k with
  | reserved word => cases word <;> decide +kernel
  | contextual word => cases word <;> decide +kernel

end Keyword

end ExprFront
