import TestAudit.Pattern.Basic
import TestAudit.Source.Language

namespace TestAudit

/-!
# Kinds of mutation

Tests must only observe the application under test. Each kind below is one way of
changing it: writing a property that the page shows, removing or injecting
elements, styles or scripts, or watching for mutations in order to react to them.
-/

/-- A way in which a test can change the application. -/
inductive MutationKind where
  | style
  | hidden
  | html
  | className
  | removal
  | injection
  | propertyById
  | propertyByQuery
  | display
  | observer
  | styleTag
  | scriptTag
  deriving Repr, DecidableEq

/-- How grave a finding is: a critical one blocks the test run, a warning asks for a review. -/
inductive Severity where
  | critical
  | warning
  deriving Repr, DecidableEq

namespace Severity

/-- The name of a severity in reports. -/
def name : Severity → Text
  | .critical => "critical"
  | .warning => "warning"

/-- The severity with a given name. -/
def ofName? (name : Text) : Option Severity :=
  [critical, warning].find? (·.name = name)

end Severity

/-- Where a rule looks: in the arguments of script-execution calls, or in all other code too. -/
inductive Scope where
  | call
  | file
  deriving Repr, DecidableEq

namespace Scope

/-- The name of a scope. -/
def name : Scope → Text
  | .call => "call"
  | .file => "file"

end Scope

namespace Pattern

/-- An assignment: equality tests and arrows are none; a sign may stand before the equals sign. -/
def assignmentSign : Pattern :=
  .inOrder [
    .optional (.one (.oneOf "+-")),
    .one (.exactly '='),
    .notAhead (.one (.oneOf "=>"))]

/-- An assignment with white space before it. -/
def assignment : Pattern :=
  .andThen (.many .blank) assignmentSign

/-- A dot and the white space after it. -/
def access : Pattern :=
  .andThen (.one (.exactly '.')) (.many .blank)

/-- White space and an opening parenthesis. -/
def openParen : Pattern :=
  .andThen (.many .blank) (.one (.exactly '('))

/-- A call of a member with one of the given names, up to the opening parenthesis. -/
def memberCall (names : List Text) : Pattern :=
  .inOrder [access, .anyText names, openParen]

/-- An assignment to a member with one of the given names. -/
def memberAssignment (names : List Text) : Pattern :=
  .inOrder [access, .anyText names, assignment]

/-- The opening quote of an argument, perhaps behind a backslash. -/
def argumentQuote : Pattern :=
  .inOrder [
    .many .blank,
    .optional (.one (.exactly '\\')),
    .one (.oneOf "\x27\x22\x60")]

/-- An assignment to a member of the element that a document method returns. -/
def foundElementAssignment (method : Text) : Pattern :=
  .inOrder [
    .wordEdge,
    .literally "document",
    .many .blank,
    memberCall [method],
    .many (.noneOf ")"),
    .one (.exactly ')'),
    .many .blank,
    access,
    .oneOrMore .word,
    assignment]

end Pattern

namespace MutationKind

/-- A write to a style declaration, save one to its display property by name. -/
def stylePattern : Pattern :=
  .inOrder [
    .access,
    .literally "style",
    .many .blank,
    .firstOf [
      .inOrder [
        .access,
        .notAhead (.andThen (.literally "display") .wordEdge),
        .oneOrMore .word,
        .assignment],
      .inOrder [
        .one (.exactly '['),
        .many (.noneOf "]\n"),
        .one (.exactly ']'),
        .assignment],
      .assignmentSign,
      .memberCall ["setProperty", "removeProperty"]]]

/-- A write to the hidden property or to the attribute of that name. -/
def hiddenPattern : Pattern :=
  .firstOf [
    .memberAssignment ["hidden"],
    .inOrder [
      .memberCall ["setAttribute", "removeAttribute", "toggleAttribute"],
      .argumentQuote,
      .literally "hidden"]]

/-- A write to the class name or a change of the class list. -/
def classPattern : Pattern :=
  .andThen .access (.firstOf [
    .andThen (.literally "className") .assignment,
    .inOrder [
      .literally "classList",
      .many .blank,
      .memberCall ["add", "remove", "toggle", "replace"]]])

/-- A removal or replacement of elements. -/
def removalPattern : Pattern :=
  .andThen .access (.firstOf [
    .inOrder [
      .literally "remove",
      .openParen,
      .many .blank,
      .one (.exactly ')')],
    .andThen (.literally "removeChild") .openParen,
    .andThen (.literally "replaceChildren") .openParen,
    .andThen (.literally "replaceWith") .openParen])

/-- An insertion of elements or markup, or the creation of an element that styles or scripts. -/
def injectionPattern : Pattern :=
  .firstOf [
    .memberCall ["appendChild", "insertBefore", "insertAdjacentHTML", "insertAdjacentElement"],
    .inOrder [
      .wordEdge,
      .literally "document",
      .many .blank,
      .access,
      .literally "write",
      .optional (.literally "ln"),
      .openParen],
    .inOrder [
      .wordEdge,
      .literally "createElement",
      .openParen,
      .argumentQuote,
      .anyText ["style", "script", "link"],
      .wordEdge]]

/-- A write to the display property: in scripts that of a style, or one that sets a text. -/
def displayPattern : Language → Pattern
  | .script =>
      .firstOf [
        .inOrder [
          .wordEdge,
          .literally "style",
          .many .blank,
          .memberAssignment ["display"]],
        .inOrder [
          .memberAssignment ["display"],
          .many .blank,
          .one (.oneOf "\x27\x22\x60")]]
  | _ => .memberAssignment ["display"]

/-- The creation of a mutation observer. -/
def observerPattern : Pattern :=
  .inOrder [
    .wordEdge,
    .literally "new",
    .oneOrMore .blank,
    .literally "MutationObserver",
    .wordEdge]

/-- The method that adds a style element. -/
def styleTagCall : Language → Text
  | .csharp => "AddStyleTagAsync"
  | .python => "add_style_tag"
  | _ => "addStyleTag"

/-- The method that adds a script element. -/
def scriptTagCall : Language → Text
  | .csharp => "AddScriptTagAsync"
  | .python => "add_script_tag"
  | _ => "addScriptTag"

/-- What a mutation of a kind looks like in a language. -/
def pattern (kind : MutationKind) (language : Language) : Pattern :=
  match kind with
  | .style => stylePattern
  | .hidden => hiddenPattern
  | .html => .memberAssignment ["innerHTML", "outerHTML"]
  | .className => classPattern
  | .removal => removalPattern
  | .injection => injectionPattern
  | .propertyById => .foundElementAssignment "getElementById"
  | .propertyByQuery => .foundElementAssignment "querySelector"
  | .display => displayPattern language
  | .observer => observerPattern
  | .styleTag => .memberCall [styleTagCall language]
  | .scriptTag => .memberCall [scriptTagCall language]

/-- How grave a mutation of a kind is. -/
def severity : MutationKind → Severity
  | .propertyById | .propertyByQuery => .warning
  | _ => .critical

/-- Where mutations of a kind are looked for in a language. -/
def scope (kind : MutationKind) (language : Language) : Scope :=
  match kind, language with
  | .display, .script | .observer, .script | .styleTag, _ | .scriptTag, _ => .file
  | _, _ => .call

end MutationKind

end TestAudit
