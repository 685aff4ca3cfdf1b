import AdaToC.Encoding.DoubleByte
import AdaToC.Toml.Document

/-!
# What a run takes as given

Three things are settled elsewhere, and a run is given them: the tables of the East Asian encodings,
the order in which the entries of a TOML table are gone through, and the words in which a TOML
document is refused. What is shown about runs holds whatever they are.
-/

namespace AdaToC

/-- An order in which the entries of each table of a document are gone through. -/
structure Toml.EntryOrder where
  /-- The entries of the table under some keys. -/
  arrange (keys : List Bytes) : Entries → Entries
  perm : ∀ keys es, (arrange keys es).Perm es

/-- Entries are gone through as they were written. -/
def Toml.EntryOrder.written : EntryOrder where
  arrange _ := id
  perm _ := List.Perm.refl

/-- All that is settled elsewhere. -/
structure Basis where
  tables : Encoding.Tables := {}
  order : Toml.EntryOrder := .written
  /-- Why a text was refused that is not a document, or not one that a manifest can be. -/
  complaint : Bytes → Bytes := fun _ => bytes "not a manifest"

end AdaToC
