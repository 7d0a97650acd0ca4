import UpsertSql.Dialect.Writer
import UpsertSql.Execution.Script
import UpsertSql.Meaning.RowUpdate
import UpsertSql.Schema.Outline
import UpsertSql.Text.Lexeme
import UpsertSql.Proofs.Assignment.Analysis
import UpsertSql.Proofs.Assignment.Binding
import UpsertSql.Proofs.Command
import UpsertSql.Proofs.Meaning.Preservation
import UpsertSql.Proofs.Text.Legible
import UpsertSql.Proofs.Dialect.Reading
import UpsertSql.Proofs.Dialect.Placeholders
import UpsertSql.Proofs.Text.Decodable
import UpsertSql.Proofs.Dialect.Decoding
import UpsertSql.Proofs.Dialect.Injectivity
import UpsertSql.Proofs.Alike.Analysis
import UpsertSql.Proofs.Alike.Command
import UpsertSql.Proofs.Alike.Values
import UpsertSql.Proofs.Alike.Renaming
import UpsertSql.Proofs.Violations
import UpsertSql.Proofs.Execution.Session
import UpsertSql.Proofs.Scope
import UpsertSql.Proofs.SingleWrite
import UpsertSql.Proofs.Schema.Building
import UpsertSql.Proofs.Dialect.Rows
import UpsertSql.Proofs.Dialect.Writer
import UpsertSql.Proofs.RowsUnderColumns
import UpsertSql.Proofs.Dialect.Branch
import UpsertSql.Proofs.DefaultPolicy
import UpsertSql.Proofs.PolicyChange
import UpsertSql.Proofs.SpecOrder
import UpsertSql.Proofs.KeyOrder
import UpsertSql.Proofs.Extension
import UpsertSql.Proofs.Schema.FirstMention
import UpsertSql.Proofs.Text.Quoting
import UpsertSql.Proofs.Meaning.InTurn
import UpsertSql.Proofs.EngineName
