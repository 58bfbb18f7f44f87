import Zonemail.Db.Statement
import Zonemail.Library.Program

/-!
# The effects of the daemon's handlers

A request handler, an SMTP session and seeding are programs that perform effects one at a time:
a statement sent to the database, or the reply to an SMTP command, which a peer can see. Each
statement is atomic and may fail, and between two statements of one program any other program may
run.
-/

namespace Zonemail

open Library

/-- The commands of an SMTP session that open, fill, abandon or complete a mail transaction. -/
inductive SmtpCommand where
  | mailFrom (path : String)
  | rset
  | rcptTo (path : String)
  | data (payload : Bytes)
  deriving DecidableEq, Repr

/-- One atomic effect. -/
inductive Effect where
  | sql (statement : Statement)
  | reply (command : SmtpCommand) (accepted : Bool)
  deriving DecidableEq, Repr

/-- What a program learns from an effect. -/
@[reducible] def Answer : Effect → Type
  | .sql statement => Except DbError statement.Value
  | .reply _ _ => Unit

/-- The programs of the daemon. -/
abbrev Prog (α : Type) := Program Effect Answer α

/-- Send a statement to the database. -/
def sql (statement : Statement) : Prog (Except DbError statement.Value) :=
  Program.call (Effect.sql statement)

/-- Reply to an SMTP command. -/
def reply (command : SmtpCommand) (accepted : Bool) : Prog Unit :=
  Program.call (Effect.reply command accepted)

/-- The answer to an effect, given whether the database fails at it, and the database after it. -/
def Effect.execute : (effect : Effect) → Statement.Fault → Db → Answer effect × Db
  | .sql statement, fault, db => statement.execute fault db
  | .reply _ _, _, db => ((), db)

/-! ## One program alone -/

/-- The database, and for each statement to come whether the database fails at it. -/
structure World where
  db : Db
  faults : List Statement.Fault

/-- Perform one effect. -/
def World.perform : (effect : Effect) → World → Answer effect × World
  | .sql statement, world =>
      let result := statement.execute world.faults.head?.join world.db
      (result.1, ⟨result.2, world.faults.tail⟩)
  | .reply _ _, world => ((), world)

/-- The result of a program that nothing interrupts, and what it leaves behind. -/
def Prog.eval {α : Type} (program : Prog α) (world : World) : α × World :=
  program.run World.perform world

@[simp] theorem Prog.eval_bind {α β : Type} (program : Prog α) (next : α → Prog β)
    (world : World) :
    (program >>= next : Prog β).eval world =
      (next (program.eval world).1).eval (program.eval world).2 :=
  Program.run_bind World.perform program next world

-- The type of an answer is left out of the simp index: at a given statement it has been reduced.
/-- A program that begins with a statement goes on with its answer. -/
theorem Prog.eval_sql_bind {α : Type} (statement : Statement)
    (next : Except DbError statement.Value → Prog α) (world : World) :
    (@bind Prog _ (no_index (Except DbError statement.Value)) α (sql statement) next).eval world =
      (next (statement.execute world.faults.head?.join world.db).1).eval
        ⟨(statement.execute world.faults.head?.join world.db).2, world.faults.tail⟩ := rfl

/-- A program that begins with a statement is safe when the statement obeys the rule and what
follows is safe. -/
theorem Prog.safe_sql {α : Type} {possible : (effect : Effect) → Answer effect → Prop}
    {rule : Program.History Effect Answer → Effect → Prop}
    {post : Program.History Effect Answer → α → Prop} {statement : Statement}
    {next : Except DbError statement.Value → Prog α} {history : Program.History Effect Answer}
    (hrule : rule history (.sql statement))
    (hnext : ∀ answer, possible (.sql statement) answer →
      (next answer).Safe possible rule post (history ++ [⟨.sql statement, answer⟩])) :
    (sql statement >>= next : Prog α).Safe possible rule post history :=
  .perform hrule hnext

/-- A program that is safe under a rule that keeps an invariant of the database, which allows only
possible answers, keeps it when nothing interrupts the program. -/
theorem Prog.eval_of_safe {α : Type} {possible : (effect : Effect) → Answer effect → Prop}
    {rule : Program.History Effect Answer → Effect → Prop}
    {post : Program.History Effect Answer → α → Prop} {invariant : Db → Prop} {program : Prog α}
    {history : Program.History Effect Answer} {world : World}
    (h : program.Safe possible rule post history)
    (hpossible : ∀ effect fault db, invariant db → possible effect (effect.execute fault db).1)
    (hkeep : ∀ history effect fault db, invariant db → rule history effect →
      invariant (effect.execute fault db).2)
    (hstart : invariant world.db) : invariant (program.eval world).2.db := by
  induction h generalizing world with
  | done => exact hstart
  | @perform effect resume history hrule _ ih =>
      cases effect with
      | sql statement =>
          exact ih _ (hpossible (.sql statement) world.faults.head?.join _ hstart)
            (hkeep history (.sql statement) world.faults.head?.join _ hstart hrule)
      | reply command accepted =>
          exact ih _ (hpossible (.reply command accepted) none _ hstart) hstart

/-- None of the next `count` statements fails. -/
def Clear (count : Nat) (faults : List Statement.Fault) : Prop :=
  ∀ fault ∈ faults.take count, fault = none

theorem clear_zero (faults : List Statement.Fault) : Clear 0 faults := by
  simp [Clear]

/-- The next statements are the first of them and those after it. -/
theorem clear_succ {count : Nat} {faults : List Statement.Fault} :
    Clear (count + 1) faults ↔ faults.head?.join = none ∧ Clear count faults.tail := by
  cases faults with
  | nil => simp [Clear]
  | cons fault faults => simp [Clear]

/-- Nothing fails when no fault is to come. -/
theorem clear_nil (count : Nat) : Clear count [] := by
  simp [Clear]

end Zonemail
