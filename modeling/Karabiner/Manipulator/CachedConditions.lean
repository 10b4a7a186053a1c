import Karabiner.Library.LastResult
import Karabiner.Manipulator.Environment

/-!
# Conditions that keep their last result

`share/manipulator/conditions/frontmost_application.hpp` and `input_source.hpp`, with the vendored
`input_source_selector::specifier`.  Both conditions search a list, which they leave at the first
element that matches, and keep the result together with what it was computed for; the vendored
`operator==` of both compares all fields.

* `searchAny_eq` — what a search finds.
* `evaluate_iff` — what a condition says without its cache, for each of the classes.
* `conditionCaches_transparent` — **the caches are transparent**: any calls return what the
  conditions say without them.
-/

namespace Karabiner

/-- `std::regex_search`, for the text of a pattern and the text that is searched. -/
class RegexSearch where
  search : String → String → Bool

/-! ### Searching a list -/

/-- The result of a condition for which something is found. -/
def ConditionType.found : ConditionType → Bool
  | .if_ => true
  | .unless => false

/-- The result of a condition for which nothing is found. -/
def ConditionType.notFound : ConditionType → Bool
  | .if_ => false
  | .unless => true

/-- What a condition says about a fact: that it holds, or that it does not. -/
def ConditionType.Says (type : ConditionType) (p : Prop) : Prop :=
  match type with
  | .if_ => p
  | .unless => ¬p

/-- A loop that is left with a result at the first element that matches. -/
def searchAny {α : Type} (type : ConditionType) (test : α → Bool) : List α → Option Bool
  | [] => none
  | element :: elements => if test element then some type.found else searchAny type test elements

theorem searchAny_eq {α : Type} (type : ConditionType) (test : α → Bool) (elements : List α) :
    searchAny type test elements = if elements.any test then some type.found else none := by
  induction elements with
  | nil => rfl
  | cons element elements ih =>
      rw [searchAny, ih, List.any_cons]
      cases test element <;> rfl

/-- What is said after the searches. -/
theorem result_iff (type : ConditionType) {found : Bool} {p : Prop} (h : found = true ↔ p) :
    (if found then type.found else type.notFound) = true ↔ type.Says p := by
  cases type <;> cases found <;>
    simpa [ConditionType.found, ConditionType.notFound, ConditionType.Says] using h

/-! ### The frontmost application -/

/-- `conditions::frontmost_application`, without its cache. -/
structure FrontmostApplicationCondition where
  type : ConditionType
  bundleIdentifiers : List String
  filePaths : List String

namespace FrontmostApplicationCondition

variable [RegexSearch]

/-- The search of a text that may be missing. -/
def searchText (type : ConditionType) (text : Option String) (patterns : List String) :
    Option Bool :=
  match text with
  | some text => searchAny type (fun pattern => RegexSearch.search pattern text) patterns
  | none => none

/-- What `is_fulfilled` computes for an application. -/
def evaluate (c : FrontmostApplicationCondition) (application : FrontmostApplication) : Bool :=
  match searchText c.type application.bundleIdentifier c.bundleIdentifiers with
  | some result => result
  | none =>
    match searchText c.type application.filePath c.filePaths with
    | some result => result
    | none => c.type.notFound

/-- `is_fulfilled`, with the cache that it leaves.  The entry is not read. -/
def isFulfilled (c : FrontmostApplicationCondition)
    (cachedResult : Option (FrontmostApplication × Bool)) (_entry : Entry)
    (env : ManipulatorEnvironment) : Option (FrontmostApplication × Bool) × Bool :=
  LastResult.lookup c.evaluate cachedResult env.frontmostApplication

/-- A pattern matches the text, if there is one. -/
def MatchesText (patterns : List String) (text : Option String) : Prop :=
  ∃ t, text = some t ∧ ∃ pattern ∈ patterns, RegexSearch.search pattern t = true

/-- A listed pattern matches. -/
def Matches (c : FrontmostApplicationCondition) (application : FrontmostApplication) : Prop :=
  MatchesText c.bundleIdentifiers application.bundleIdentifier ∨
    MatchesText c.filePaths application.filePath

theorem searchText_eq (type : ConditionType) (text : Option String) (patterns : List String) :
    searchText type text patterns =
      if text.any (fun t => patterns.any fun pattern => RegexSearch.search pattern t)
      then some type.found else none := by
  cases text with
  | none => rfl
  | some t => exact searchAny_eq ..

theorem matchesText_iff (patterns : List String) (text : Option String) :
    text.any (fun t => patterns.any fun pattern => RegexSearch.search pattern t) = true ↔
      MatchesText patterns text := by
  cases text <;> simp [MatchesText]

/-- What the condition says without its cache. -/
theorem evaluate_iff (c : FrontmostApplicationCondition) (application : FrontmostApplication) :
    c.evaluate application = true ↔ c.type.Says (c.Matches application) := by
  have hbundle := matchesText_iff c.bundleIdentifiers application.bundleIdentifier
  have hfile := matchesText_iff c.filePaths application.filePath
  unfold evaluate Matches
  rw [searchText_eq, searchText_eq]
  revert hbundle hfile
  -- The second search is made only when the first finds nothing.
  cases application.bundleIdentifier.any _ with
  | true => exact fun hbundle _ => result_iff c.type (iff_of_true rfl (.inl (hbundle.mp rfl)))
  | false =>
      cases application.filePath.any _ with
      | true => exact fun _ hfile => result_iff c.type (iff_of_true rfl (.inr (hfile.mp rfl)))
      | false =>
          refine fun hbundle hfile => result_iff c.type (iff_of_false Bool.false_ne_true ?_)
          rintro (h | h)
          · exact Bool.false_ne_true (hbundle.mpr h)
          · exact Bool.false_ne_true (hfile.mpr h)

end FrontmostApplicationCondition

/-! ### The input source -/

section

variable [RegexSearch]

/-- A pattern, if one is given, matches a text that is there. -/
def testPattern (pattern text : Option String) : Bool :=
  match pattern, text with
  | none, _ => true
  | some pattern, some text => RegexSearch.search pattern text
  | some _, none => false

/-- `specifier::test`. -/
def InputSourceSpecifier.test (s : InputSourceSpecifier) (properties : InputSourceProperties) :
    Bool :=
  testPattern s.language properties.firstLanguage &&
    testPattern s.inputSourceId properties.inputSourceId &&
    testPattern s.inputModeId properties.inputModeId

end

/-- `conditions::input_source`, without its cache. -/
structure InputSourceCondition where
  type : ConditionType
  inputSourceSpecifiers : List InputSourceSpecifier

namespace InputSourceCondition

variable [RegexSearch]

/-- What `is_fulfilled` computes for an input source. -/
def evaluate (c : InputSourceCondition) (properties : InputSourceProperties) : Bool :=
  match searchAny c.type (fun s => s.test properties) c.inputSourceSpecifiers with
  | some result => result
  | none => c.type.notFound

/-- `is_fulfilled`, with the cache that it leaves.  The entry is not read. -/
def isFulfilled (c : InputSourceCondition)
    (cachedResult : Option (InputSourceProperties × Bool)) (_entry : Entry)
    (env : ManipulatorEnvironment) : Option (InputSourceProperties × Bool) × Bool :=
  LastResult.lookup c.evaluate cachedResult env.inputSourceProperties

/-- A listed specifier matches. -/
def Matches (c : InputSourceCondition) (properties : InputSourceProperties) : Prop :=
  ∃ s ∈ c.inputSourceSpecifiers, s.test properties = true

/-- What the condition says without its cache. -/
theorem evaluate_iff (c : InputSourceCondition) (properties : InputSourceProperties) :
    c.evaluate properties = true ↔ c.type.Says (c.Matches properties) := by
  have hany : (c.inputSourceSpecifiers.any fun s => s.test properties) = true ↔
      c.Matches properties := List.any_eq_true
  unfold evaluate
  rw [searchAny_eq]
  revert hany
  cases c.inputSourceSpecifiers.any fun s => s.test properties with
  | true => exact fun hany => result_iff c.type hany
  | false => exact fun hany => result_iff c.type hany

end InputSourceCondition

/-! ### The caches -/

/-- **The caches are transparent**: any calls of a condition return what it says without its cache,
which is whether something on its list matches, or whether nothing does. -/
theorem conditionCaches_transparent [RegexSearch] :
    (∀ (c : FrontmostApplicationCondition) (calls : List (Entry × ManipulatorEnvironment)),
      Machine.outputs (fun cached call =>
          ((c.isFulfilled cached call.1 call.2).1, [(c.isFulfilled cached call.1 call.2).2]))
          none calls =
        calls.map fun call => c.evaluate call.2.frontmostApplication) ∧
    (∀ (c : FrontmostApplicationCondition) application,
      c.evaluate application = true ↔ c.type.Says (c.Matches application)) ∧
    (∀ (c : InputSourceCondition) (calls : List (Entry × ManipulatorEnvironment)),
      Machine.outputs (fun cached call =>
          ((c.isFulfilled cached call.1 call.2).1, [(c.isFulfilled cached call.1 call.2).2]))
          none calls =
        calls.map fun call => c.evaluate call.2.inputSourceProperties) ∧
    ∀ (c : InputSourceCondition) properties,
      c.evaluate properties = true ↔ c.type.Says (c.Matches properties) :=
  ⟨fun _ calls => LastResult.outputs_lookup (fun call => call.2.frontmostApplication) calls,
    fun c => c.evaluate_iff,
    fun _ calls => LastResult.outputs_lookup (fun call => call.2.inputSourceProperties) calls,
    fun c => c.evaluate_iff⟩

end Karabiner
