import TestAudit.Rule.Kind

namespace TestAudit

/-!
# The rule catalog

A rule is a kind of mutation in a language. The catalog lists the rules of each
language in the order in which they are tried; Go has none.
-/

/-- The rule against one kind of mutation in one language. -/
structure Rule where
  language : Language
  kind : MutationKind
  deriving Repr, DecidableEq

namespace Language

/-- What the identifiers of the rules of a language begin with. -/
def ruleMark : Language → Text
  | .csharp => "CS_"
  | .python => "PY_"
  | _ => []

/-- The name of script execution in the descriptions of a language. -/
def callLabel : Language → Text
  | .csharp => "ExecuteScript()"
  | .python => "execute_script()"
  | _ => "evaluate()"

/-- The kinds of mutation that are looked for, in order. -/
def mutationKinds : Language → List MutationKind
  | .go => []
  | _ =>
      [ .style, .hidden, .html, .className, .removal, .injection, .propertyById,
        .propertyByQuery, .display, .observer, .styleTag, .scriptTag ]

/-- The rules of a language, in order. -/
def rules (language : Language) : List Rule :=
  language.mutationKinds.map (Rule.mk language)

end Language

namespace MutationKind

/-- The identifier of a kind. -/
def id : MutationKind → Text
  | .style => "DOM_STYLE_MUTATION"
  | .hidden => "DOM_HIDDEN_MUTATION"
  | .html => "DOM_HTML_MUTATION"
  | .className => "DOM_CLASS_MUTATION"
  | .removal => "DOM_ELEMENT_REMOVAL"
  | .injection => "DOM_ELEMENT_INJECTION"
  | .propertyById => "DOM_PROPERTY_SET"
  | .propertyByQuery => "DOM_QUERY_SET"
  | .display => "CSS_DISPLAY_OVERRIDE"
  | .observer => "MUTATION_OBSERVER"
  | .styleTag => "INJECTED_STYLE"
  | .scriptTag => "INJECTED_SCRIPT"

/-- What a test does that commits a mutation of a kind. -/
def deed : MutationKind → Text
  | .style => "modifies element .style property"
  | .hidden => "modifies element .hidden property"
  | .html => "modifies element innerHTML/outerHTML"
  | .className => "modifies element classes"
  | .removal => "removes DOM elements"
  | .injection => "injects elements, scripts or stylesheets"
  | .propertyById => "sets a property on a DOM element by ID"
  | .propertyByQuery => "sets a property on a queried DOM element"
  | .display => "overrides CSS display property"
  | .observer => "creates a MutationObserver to reactively modify the DOM"
  | .styleTag => "injects a <style> tag into the application"
  | .scriptTag => "injects a <script> tag into the application"

/-- What the rule against a kind says. -/
def commandment : MutationKind → Text
  | .style => "Rule Zero: Tests must never modify application CSS/styles"
  | .hidden => "Rule Zero: Tests must never modify application visibility"
  | .html => "Rule Zero: Tests must never modify application DOM content"
  | .className => "Rule Zero: Tests must never modify application CSS classes"
  | .removal => "Rule Zero: Tests must never remove application elements"
  | .injection => "Rule Zero: Tests must never inject content into the application"
  | .propertyById | .propertyByQuery => "Potential Rule Zero violation: verify this is read-only"
  | .display => "Rule Zero: Tests must never override application CSS display"
  | .observer => "Rule Zero: Tests must never use MutationObserver to alter app behavior"
  | .styleTag => "Rule Zero: Tests must never inject CSS into the application"
  | .scriptTag => "Rule Zero: Tests must never inject JavaScript into the application"

end MutationKind

namespace Rule

/-- The identifier of a rule. -/
def id (rule : Rule) : Text :=
  rule.language.ruleMark ++ rule.kind.id

/-- What the rule matches. -/
def pattern (rule : Rule) : Pattern :=
  rule.kind.pattern rule.language

/-- Where the rule looks. -/
def scope (rule : Rule) : Scope :=
  rule.kind.scope rule.language

/-- How grave a finding of the rule is. -/
def severity (rule : Rule) : Severity :=
  rule.kind.severity

/-- What a finding of the rule means: a whole file is a test's doing, a call the call's. -/
def description (rule : Rule) : Text :=
  let doer : Text :=
    match rule.scope with
    | .file => "Test"
    | .call => rule.language.callLabel
  doer ++ ' ' :: rule.kind.deed

/-- What the rule says. -/
def commandment (rule : Rule) : Text :=
  rule.kind.commandment

end Rule

end TestAudit
