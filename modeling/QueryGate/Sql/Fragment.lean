import QueryGate.Sql.Dialect
import QueryGate.Value

/-!
SQL under construction: fixed words, names and parameter marks, with the parameters in the order of their
marks. Only rendering depends on the dialect.
-/
namespace QueryGate

inductive Piece where
  | word (s : String)
  | name (identifier : String)
  | marker (index : Int)
  deriving DecidableEq, Repr

structure Fragment where
  sql : String
  params : List Value

structure Draft where
  pieces : List Piece
  params : List Value

def Piece.render (d : Dialect) : Piece → String
  | word s => s
  | name identifier => Identifier.escape d identifier
  | marker index => d.marker index

def renderPieces (d : Dialect) (pieces : List Piece) : String := String.join (pieces.map (Piece.render d))

namespace Draft

def render (dialect : Dialect) (d : Draft) : Fragment := ⟨renderPieces dialect d.pieces, d.params⟩

def empty : Draft := ⟨[], []⟩

def append (a b : Draft) : Draft := ⟨a.pieces ++ b.pieces, a.params ++ b.params⟩

instance : Append Draft := ⟨append⟩

def word (s : String) : Draft := ⟨[.word s], []⟩

def name (identifier : String) : Draft := ⟨[.name identifier], []⟩

def join (separator : String) (drafts : List Draft) : Draft :=
  ⟨[Piece.word separator].intercalate (drafts.map (·.pieces)), drafts.flatMap (·.params)⟩

def between (opening closing : String) (d : Draft) : Draft := word opening ++ d ++ word closing

def markers (offset : Int) (params : List Value) : List Draft :=
  (params.zipIdx 1).map fun (v, i) => ⟨[.marker (offset + i)], [v]⟩

end Draft
end QueryGate
