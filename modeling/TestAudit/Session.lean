import TestAudit.Files.LogFile

namespace TestAudit

/-!
# Sessions

A session looks at files and writes log lines. Its log file is a file like any
other, so what a session reads there later holds the lines that it wrote before.
Without a log file the files stay as they are from beginning to end.
-/

/-- What a session sees: the files as they are now, and the log file, if there is one. -/
structure Sight where
  tree : Tree
  logFile : Option LogFile := none
  deriving Repr, DecidableEq

/-- What a session sees once log lines are written. -/
def Sight.after (sight : Sight) (lines : List LogLine) : Sight :=
  match sight.logFile with
  | none => sight
  | some file => { sight with tree := file.record sight.tree lines }

/-- A computation that depends on what it sees, and writes log lines. -/
def Session (α : Type) : Type :=
  Sight → Logged α

namespace Session

/-- The files as they are now. -/
def tree : Session Tree :=
  fun sight => pure sight.tree

/-- Writes log lines. -/
def tell (lines : List LogLine) : Session Unit :=
  fun _ => Logged.tell lines

/-- A session on files among which there is no log file of its own. -/
def onFiles {α : Type} (session : Session α) (tree : Tree) : Logged α :=
  session { tree }

instance : Monad Session where
  pure value := fun _ => pure value
  bind first next := fun sight =>
    let before := first sight
    let later := next before.value (sight.after before.log)
    ⟨before.log ++ later.log, later.value⟩

instance : MonadLift Logged Session where
  monadLift logged := fun _ => logged

/-- Goes on with what a session gives; a fault is told as a fault of another kind. -/
def onward {ε δ α β : Type} (told : ε → δ) (first : Session (Except ε α))
    (next : α → Session (Except δ β)) : Session (Except δ β) := do
  match ← first with
  | .ok value => next value
  | .error fault => return .error (told fault)

@[simp] theorem value_tree (sight : Sight) : (tree sight).value = sight.tree :=
  rfl

@[simp] theorem value_lift {α : Type} (logged : Logged α) (sight : Sight) :
    ((liftM logged : Session α) sight).value = logged.value :=
  rfl

@[simp] theorem value_pure {α : Type} (value : α) (sight : Sight) :
    ((pure value : Session α) sight).value = value :=
  rfl

@[simp] theorem value_bind {α β : Type} (first : Session α) (next : α → Session β) (sight : Sight) :
    ((first >>= next) sight).value =
      (next (first sight).value (sight.after (first sight).log) : Logged β).value :=
  rfl

/-! On files among which there is no log file, each step sees the files as they are. -/

@[simp] theorem value_tree_onFiles (files : Tree) : (tree.onFiles files).value = files :=
  rfl

@[simp] theorem value_lift_onFiles {α : Type} (logged : Logged α) (files : Tree) :
    ((liftM logged : Session α).onFiles files).value = logged.value :=
  rfl

@[simp] theorem value_bind_onFiles {α β : Type}
    (first : Session α) (next : α → Session β) (files : Tree) :
    ((first >>= next).onFiles files).value =
      ((next (first.onFiles files).value).onFiles files).value :=
  rfl

theorem value_onward_onFiles {ε δ α β : Type}
    (told : ε → δ) (first : Session (Except ε α)) (next : α → Session (Except δ β))
    (files : Tree) :
    ((onward told first next).onFiles files).value =
      (first.onFiles files).value.mapError told >>= fun value =>
        ((next value).onFiles files).value := by
  rw [onward, value_bind_onFiles]
  cases (first.onFiles files).value <;> rfl

end Session

end TestAudit
