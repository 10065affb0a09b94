-- Catalogs as files: which format a text or a file name stands for, and the
-- catalog that a text or a file holds.
import Phrasebook.Error
import Phrasebook.FileStore
import Phrasebook.Text.Encoding
import Phrasebook.Text.Quoted

namespace Phrasebook

/-! ## Formats -/

namespace Format

def ofName (s : String) : Except Error Format :=
  match ofName? s with
  | some format => .ok format
  | none => .error (.unknownFormat (plainName s))

/-- The format that the extension of a path names. -/
def ofPath? (path : String) : Option Format := (Path.extension? path).bind ofName?

/-- The extension as the report on an unknown one shows it. -/
def shownExtension : Option String → String
  | none => "None"
  | some extension => "Some(" ++ Text.quoted extension ++ ")"

def ofPath (path : String) : Except Error Format :=
  match ofPath? path with
  | some format => .ok format
  | none =>
    .error (.unknownFormat ("cannot infer catalog format from extension: " ++
      shownExtension (Path.extension? path)))

end Format

/-! ## Catalogs -/

namespace Catalog

def parse (format : Format) (text : String) : Except Error Catalog :=
  (format.catalog text).mapError (.decoding format)

/-- The catalog that the bytes of a file hold. -/
def ofBytes (format : Format) (bytes : ByteArray) : Except Error Catalog :=
  match Text.ofFile? bytes with
  | some text => parse format text
  | none => .error (.file .invalidText)

variable {m : Type → Type} [Monad m] [FileStore m]

/-- The catalog in a file. Without a format the extension tells it. -/
def readFrom (path : String) (format : Option Format) : m (Except Error Catalog) := do
  match format.elim (Format.ofPath path) .ok with
  | .error e => return .error e
  | .ok format =>
    match ← FileStore.read path with
    | .error e => return .error (.file e)
    | .ok bytes => return ofBytes format bytes

end Catalog

end Phrasebook
