import UpsertSql.Upsert

/-! Statement text in pieces: fixed words, names still to be quoted, and the places of parameters.
No name and no value is ever part of the fixed words. -/
namespace UpsertSql

inductive Piece where
  | word (s : String)
  | name (s : String)
  | parameter (index : Nat)
  deriving DecidableEq

namespace Piece

/-- What the statement calls the existing row. -/
def targetAlias : Piece := name "T"

/-- What a merge calls the incoming rows. -/
def sourceAlias : Piece := name "S"

def separated (separator : String) (items : List (List Piece)) : List Piece :=
  [word separator].intercalate items

def table (t : TableName) : List Piece :=
  match t.qualifier with
  | some q => [name q, word ".", name t.name]
  | none => [name t.name]

def columnList (columns : List String) : List Piece :=
  separated ", " (columns.map fun c => [name c])

/-- Row `r` holds the parameters from `r * columnCount` on. -/
def valueRow (columnCount r : Nat) : List Piece :=
  word "(" :: separated ", " ((List.range columnCount).map fun c =>
    [parameter (r * columnCount + c)]) ++ [word ")"]

def valueRows (rowCount columnCount : Nat) : List Piece :=
  separated ", " ((List.range rowCount).map (valueRow columnCount))

end Piece
end UpsertSql
