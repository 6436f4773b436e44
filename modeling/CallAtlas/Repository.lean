import CallAtlas.Failure
import CallAtlas.Files.Path
import CallAtlas.Text.Lines
import CallAtlas.Validation
import CallAtlas.Yaml.Document

/-!
# Repositories to analyse

A repository has a name, the roots of its sources and perhaps a store of its own. It
is described by a configuration text or made for one folder. A description that does
not fit is refused with every issue in it, in the order of the fields.
-/

namespace CallAtlas

/-- A folder with sources. -/
structure SourceRoot where
  path : Path
  /-- Whether folders inside count. -/
  isDeep : Bool := true
  /-- The extensions of source files, if they differ from those of the settings. -/
  extensions : Option (List String) := none
deriving Repr, DecidableEq

/-- A repository. -/
structure Repository where
  id : String
  storePath : Option Path := none
  sources : List SourceRoot
deriving Repr, DecidableEq

/-- Why a description is refused. -/
inductive DescriptionError
  /-- The text gives no value. -/
  | unreadable (cause : Yaml.Fault)
  /-- The description is a value of another kind than a record. -/
  | notRecord (kind : String)
  /-- A field of the description is not named by a text. -/
  | fieldNotText
  | invalid (issues : List Issue)
deriving Repr, DecidableEq

/-- The wording of those refusals that have one. -/
def DescriptionError.message : DescriptionError → String
  | unreadable cause => cause.message
  | notRecord kind =>
    "xqy_watcher.config.RepoConfig() argument after ** must be a mapping, not " ++ kind
  | fieldNotText => "keywords must be strings"
  | invalid _ => ""

/-! ## Checks -/

/-- A check of a value at a place. -/
abbrev Check (α : Type) := List Place → Yaml.Value → Validated α

namespace Check

/-- A text, which may be given as its bytes. -/
def text : Check String := fun place v =>
  match v with
  | .text s => .ok s
  | .bytes data =>
    match String.fromUTF8? ⟨data.toArray⟩ with
    | some s => .ok s
    | none => .issue .unreadableText place
  | _ => .issue .notText place

/-- A path. -/
def path : Check Path := fun place v =>
  match v with
  | .text s => .ok (.ofString s)
  | _ => .issue .notPath place

/-- The truth value that an integer stands for. Integers beyond 64 bits are not looked at. -/
def truthOfInt (place : List Place) (n : Int) : Validated Bool :=
  if n = 0 then .ok false
  else if n = 1 then .ok true
  else if Numeral.fitsWord n then .issue .unreadableBool place
  else .issue .notBool place

/-- The truth value that a decimal fraction stands for. The least integer of 64 bits is not
looked at either. -/
def truthOfReal (place : List Place) (d : Double) : Validated Bool :=
  match d.toInt? with
  | some n => if Numeral.fitsWord (n - 1) then truthOfInt place n else .issue .notBool place
  | none => .issue .notBool place

/-- A truth value, given as such, as a word or as zero or one. -/
def truth : Check Bool := fun place v =>
  match v with
  | .bool b => .ok b
  | .text s => Validated.truth place s
  | .bytes data =>
    match String.fromUTF8? ⟨data.toArray⟩ with
    | some s => Validated.truth place s
    | none => .issue .unreadableBool place
  | .int n => truthOfInt place n
  | .real d => truthOfReal place d
  | _ => .issue .notBool place

/-- A list or a set of checked items. -/
def list {α : Type} (item : Check α) : Check (List α) := fun place v =>
  match v with
  | .list items | .set items =>
    Validated.every (items.mapIdx fun i v => item (place ++ [.index i]) v)
  | _ => .issue .notList place

/-- A value that may be nothing. -/
def optional {α : Type} (check : Check α) : Check (Option α) := fun place v =>
  match v with
  | .null => .ok none
  | v => (check place v).map some

/-- A field that must be there. -/
def required {α : Type} (check : Check α) (place : List Place)
    (entries : List (Yaml.Value × Yaml.Value)) (name : String) : Validated α :=
  let place := place ++ [.field name]
  match Yaml.Value.field? entries name with
  | some v => check place v
  | none => .issue .missing place

/-- A field with a default. -/
def withDefault {α : Type} (check : Check α) (default : α) (place : List Place)
    (entries : List (Yaml.Value × Yaml.Value)) (name : String) : Validated α :=
  match Yaml.Value.field? entries name with
  | some v => check (place ++ [.field name]) v
  | none => .ok default

/-- A source root. -/
def sourceRoot : Check SourceRoot := fun place v =>
  match v with
  | .record entries =>
    (Validated.both (required path place entries "path")
      (Validated.both (withDefault truth true place entries "recursive")
        (withDefault (optional (list text)) none place entries "extensions"))).map
      fun (path, isDeep, extensions) => ⟨path, isDeep, extensions⟩
  | _ => .issue .notRecord place

end Check

namespace Repository

/-- The repository that the fields of a description give. -/
def ofFields (entries : List (Yaml.Value × Yaml.Value)) : Except DescriptionError Repository :=
  if !entries.all (fun (key, _) => match key with | .text _ => true | _ => false) then
    .error .fieldNotText
  else
    let checked := Validated.both (Check.required Check.text [] entries "repo_id")
      (Validated.both (Check.withDefault (Check.optional Check.path) none [] entries "db_path")
        (Check.required (Check.list Check.sourceRoot) [] entries "sources"))
    match checked with
    | .ok (id, storePath, sources) => .ok ⟨id, storePath, sources⟩
    | .error issues => .error (.invalid issues)

/-- The repository that a value describes. A value that counts as nothing has no fields. -/
def ofValue (v : Yaml.Value) : Except DescriptionError Repository :=
  if v.isVoid then ofFields []
  else match v with
    | .record entries => ofFields entries
    | v => .error (.notRecord v.kind)

/-- The repository that a configuration file describes. -/
def ofDelivery (d : Text.Delivery) : Except DescriptionError Repository :=
  match Yaml.Value.read d with
  | .ok v => ofValue v
  | .error fault => .error (.unreadable fault)

/-- The repository that a configuration text describes. -/
def ofText (text : String) : Except DescriptionError Repository :=
  ofDelivery ⟨Text.unifyNewlines text.toList, none⟩

/-- The repository of one folder, named by it unless a name is given. -/
def ofFolder (workFolder : List String) (folder : Path) (name : String) : Repository :=
  let folderName := (folder.absolute workFolder).getLast?.getD ""
  ⟨if name = "" then folderName else name, none, [{ path := folder }]⟩

/-- The repository of one folder, which may not be there. A path with a null character has no
name to give. -/
def ofAnyFolder (workFolder : List String) (folder : Path) (name : String) :
    Except FileError Repository :=
  if name = "" && folder.hasNull then .error .nullInPath
  else .ok (ofFolder workFolder folder name)

end Repository
end CallAtlas
