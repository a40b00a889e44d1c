import SchemaApi.Script
import SchemaApi.Proofs.Token.Shift
/-!
Statements and findings in another place. A statement keeps the positions of its columns and constraints, and
all of them move with it; a finding knows its line and its column only.
-/

namespace SchemaApi

variable (s : Shift)

def Finding.shift (f : Finding) : Finding := { f with line := f.line.map (· + s.lines) }

def ConstraintClause.shift : ConstraintClause → ConstraintClause
  | primaryKey columns name p => primaryKey columns name (p.shift s)
  | unique columns name p => unique columns name (p.shift s)
  | foreignKey columns reference name p => foreignKey columns reference name (p.shift s)
  | check expression name column p => check expression name column (p.shift s)
  | index elements name isUnique kind p => index elements name isUnique kind (p.shift s)

def ColumnClause.shift (c : ColumnClause) : ColumnClause :=
  { c with position := c.position.shift s, constraints := c.constraints.map (.shift s) }

def TableAction.shift : TableAction → TableAction
  | addColumn column ifNotExists => addColumn (column.shift s) ifNotExists
  | addConstraint clause => addConstraint (clause.shift s)
  | modifyColumn column oldName => modifyColumn (column.shift s) oldName
  | other => other

def StatementBody.shift : StatementBody → StatementBody
  | createTable st => createTable
      { st with columns := st.columns.map (.shift s), constraints := st.constraints.map (.shift s) }
  | alterTable st => alterTable { st with actions := st.actions.map (.shift s) }
  | other => other

def Statement.shift (st : Statement) : Statement :=
  { st with body := st.body.shift s, position := st.position.shift s }

section
variable {s}

theorem ConstraintClause.shift_zero (c : ConstraintClause) : c.shift .zero = c := by
  cases c <;> rfl

theorem ColumnClause.shift_zero (c : ColumnClause) : c.shift .zero = c := by
  have same : c.constraints.map (.shift .zero) = c.constraints := by
    rw [funext ConstraintClause.shift_zero]; exact List.map_id _
  rw [shift, same]
  rfl

theorem TableAction.shift_zero (a : TableAction) : a.shift .zero = a := by
  cases a <;> simp [shift, ColumnClause.shift_zero, ConstraintClause.shift_zero]

theorem Statement.shift_zero (st : Statement) : st.shift .zero = st := by
  obtain ⟨body, p, source⟩ := st
  cases body <;>
    simp [shift, StatementBody.shift, funext ColumnClause.shift_zero, funext ConstraintClause.shift_zero,
      funext TableAction.shift_zero]

theorem Finding.shift_zero (f : Finding) : f.shift .zero = f := by
  cases f with
  | mk _ _ _ _ _ line _ => cases line <;> rfl

end

end SchemaApi
