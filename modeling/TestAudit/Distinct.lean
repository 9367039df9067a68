namespace TestAudit

/-!
# Distinct elements

Where several elements of a list have one key, the first of them counts.
-/

/-- The elements of a list of which none before has the same key. -/
def distinctBy {α κ : Type} [DecidableEq κ] (key : α → κ) : List α → List α
  | [] => []
  | first :: others =>
      first :: (distinctBy key others).filter fun other => key other != key first

end TestAudit
