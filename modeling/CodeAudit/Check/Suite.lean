import CodeAudit.Check.Collection
import CodeAudit.Check.Complexity
import CodeAudit.Check.Directive
import CodeAudit.Check.Documentation
import CodeAudit.Check.Exposure
import CodeAudit.Check.Form
import CodeAudit.Check.Hierarchy
import CodeAudit.Check.Idiom
import CodeAudit.Check.Injection
import CodeAudit.Check.Layout
import CodeAudit.Check.LoopQuery
import CodeAudit.Check.Naming
import CodeAudit.Check.Practice
import CodeAudit.Check.Secret
import CodeAudit.Check.TemplateOutput

/-!
# Suites of checks

Every category has a suite of checks, which run in order.
-/

namespace CodeAudit

namespace Check

/-- The checks of a category, in order (`engine_for`). -/
def suite : Category → List Check
  | .security => [Injection.check, Secret.check, Exposure.check]
  | .performance => [LoopQuery.check, Collection.check]
  | .quality =>
    [Layout.check, Complexity.check, Documentation.check, Naming.check, Practice.check]
  | .idiom => [Idiom.environmentCheck, Idiom.controllerCheck, Idiom.routeCheck]
  | .inheritance => [Hierarchy.constructorCheck, Hierarchy.shapeCheck]
  | .template => [TemplateOutput.check, Form.check, Directive.check]

/-- All checks, by category. -/
def all : List Check :=
  Category.all.flatMap suite

/-- The check of a name. -/
def named? (name : String) : Option Check :=
  all.find? fun check => check.name == name

end Check

namespace Category

/-- Does the suite of a category read this kind of source (`applies_to`)? Templates have a suite of
    their own. -/
def appliesTo (category : Category) (kind : SourceKind) : Bool :=
  match kind with
  | .php => category != template
  | .blade => category == template

/-- What the suite of a category finds, none if a check breaks off. -/
def findings? (category : Category) (s : Subject) : Option (List Issue) :=
  if category.appliesTo s.kind then Check.runAll? (Check.suite category) s else some []

end Category

end CodeAudit
