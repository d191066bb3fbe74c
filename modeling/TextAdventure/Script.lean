import TextAdventure.Document

/-!
# Effect scripts

A script is a list of steps. A step is an effect, or a record that is no effect and is kept as it
is: authors may write effects that this engine does not know, or write a known one wrongly, and the
rest of the document stays usable.

An effect is written as an object with its kind in the field `type`, or as an array that begins with
its kind. `Step.ofTree?` tries to read an effect and keeps the value if that fails.
-/

namespace TextAdventure

/-- One step of a script. -/
inductive Step where
  /-- Says a line. -/
  | message (text : String)
  /-- Shows a picture. -/
  | art (file : String) (fontSize : Option UInt32)
  /-- Gives a flag a value. -/
  | setFlag (key : String) (value : Json)
  /-- Runs the first script if the flag has the value, and otherwise the second. -/
  | branch (key : String) (equals : Json) (onMatch otherwise : List Step)
  /-- Gives the player an item. -/
  | addItem (id : String)
  /-- Takes an item from the player. -/
  | removeItem (id : String)
  /-- Opens an exit. -/
  | unlockExit (room direction : String)
  /-- Closes an exit. -/
  | lockExit (room direction : String)
  /-- Moves the player to a room. -/
  | transition (room : String)
  /-- Starts a fight. -/
  | fight (enemy : String)
  /-- A record that is no effect. -/
  | unrecognized (raw : Json)

/-- A list of steps, run in order. -/
abbrev Script := List Step

namespace Step

/-- The kinds of effects, by which a record names one; a number names the kind at that place. -/
def kinds : List String :=
  ["message", "ascii", "flag_set", "flag_if", "add_item", "remove_item", "unlock_exit",
    "lock_exit", "transition", "trigger_fight"]

/-- The fields of an effect besides its kind, in the order of the array form. -/
def fieldNames : String → List String
  | "message" => ["text"]
  | "ascii" => ["file", "fontSize"]
  | "flag_set" => ["key", "value"]
  | "flag_if" => ["key", "equals", "then", "else"]
  | "add_item" | "remove_item" => ["id"]
  | "unlock_exit" | "lock_exit" => ["room", "direction"]
  | "transition" => ["to"]
  | "trigger_fight" => ["enemy"]
  | _ => []

/-- The kind that a tag names. -/
def kindOf? : Json.Tree → Option String
  | .string s => some s
  | .number (.integer n) => if 0 ≤ n then kinds[n.toNat]? else none
  | _ => none

/-- The value of a field of an effect, and the script that this value is read as. -/
structure Field where
  value : Json.Tree
  script? : Option Script

/-- The effect of a kind with these fields. Fields that the kind does not have are not looked at. -/
def effect? (kind : String) (r : Json.Record Field) : Option Step :=
  let text (name : String) := r.required name fun f => f.value.string?
  match kind with
  | "message" => message <$> text "text"
  | "ascii" => art <$> text "file" <*>
      r.withDefault "fontSize" none fun f => Json.Tree.nullable? Json.Tree.uint32? f.value
  | "flag_set" => setFlag <$> text "key" <*>
      r.withDefault "value" .null fun f => f.value.toJson?
  | "flag_if" => branch <$> text "key" <*>
      (r.withDefault "equals" .null fun f => f.value.toJson?) <*>
      r.withDefault "then" [] Field.script? <*> r.withDefault "else" [] Field.script?
  | "add_item" => addItem <$> text "id"
  | "remove_item" => removeItem <$> text "id"
  | "unlock_exit" => unlockExit <$> text "room" <*> text "direction"
  | "lock_exit" => lockExit <$> text "room" <*> text "direction"
  | "transition" => transition <$> text "to"
  | "trigger_fight" => fight <$> text "enemy"
  | _ => none

/-- The effect of an object with these fields. -/
def ofFields? (fields : List (String × Field)) : Option Step := do
  let r : Json.Record Field := ⟨fields⟩
  let kind ← r.required "type" fun f => kindOf? f.value
  effect? kind ⟨r.others ["type"]⟩

/-- The effect of an array with these items. -/
def ofItems? : List Field → Option Step
  | [] => none
  | tag :: items => do
    let kind ← kindOf? tag.value
    guard (items.length ≤ (fieldNames kind).length)
    effect? kind ⟨(fieldNames kind).zip items⟩

mutual

/-- The step that a value is read as, if no part of the value is refused. -/
def ofTree? : Json.Tree → Option Step
  | .object fields => do
    -- Whatever is kept has to be a value, even where an effect would not look at it.
    let raw ← (Json.Tree.object fields).toJson?
    return (ofFields? (fieldsOf fields)).getD (.unrecognized raw)
  | .array items => do
    let raw ← (Json.Tree.array items).toJson?
    return (ofItems? (itemsOf items)).getD (.unrecognized raw)
  | t => t.toJson?.map .unrecognized

/-- The script that a value is read as. -/
def scriptOfTree? : Json.Tree → Option Script
  | .array items => stepsOf? items
  | _ => none

/-- The steps that the items of an array are read as. -/
def stepsOf? : List Json.Tree → Option Script
  | [] => some []
  | t :: ts => do
    let s ← ofTree? t
    let ss ← stepsOf? ts
    return s :: ss

/-- The fields of an object, with the scripts that they are read as. -/
def fieldsOf : List (String × Json.Tree) → List (String × Field)
  | [] => []
  | (k, t) :: fs => (k, ⟨t, scriptOfTree? t⟩) :: fieldsOf fs

/-- The items of an array, with the scripts that they are read as. -/
def itemsOf : List Json.Tree → List Field
  | [] => []
  | t :: ts => ⟨t, scriptOfTree? t⟩ :: itemsOf ts

end

/-- The object that is written for an effect of a kind. -/
def tagged (kind : String) (fields : List (String × Json)) : Json :=
  .object (("type", .string kind) :: fields)

mutual

/-- The value that is written for a step. -/
def toJson : Step → Json
  | message text => tagged "message" [("text", .string text)]
  | art file size => tagged "ascii"
      (("file", .string file) :: Json.optionalField "fontSize" .ofUInt32 size)
  | setFlag key value => tagged "flag_set" [("key", .string key), ("value", value)]
  | branch key equals onMatch otherwise => tagged "flag_if"
      [("key", .string key), ("equals", equals), ("then", .array (scriptToJson onMatch)),
        ("else", .array (scriptToJson otherwise))]
  | addItem id => tagged "add_item" [("id", .string id)]
  | removeItem id => tagged "remove_item" [("id", .string id)]
  | unlockExit room direction => tagged "unlock_exit"
      [("room", .string room), ("direction", .string direction)]
  | lockExit room direction => tagged "lock_exit"
      [("room", .string room), ("direction", .string direction)]
  | transition room => tagged "transition" [("to", .string room)]
  | fight enemy => tagged "trigger_fight" [("enemy", .string enemy)]
  | unrecognized raw => raw

/-- The values that are written for the steps of a script. -/
def scriptToJson : Script → List Json
  | [] => []
  | s :: ss => toJson s :: scriptToJson ss

end

/-- What an unrecognized record calls itself, or a word for having no name. -/
def kindOfUnrecognized (raw : Json) : String :=
  ((raw.field? "type").bind Json.string?).getD "unbenannt"

/-- Whether the step is no effect. -/
def isUnrecognized : Step → Bool
  | unrecognized _ => true
  | _ => false

end Step

namespace Script

/-- Reads a script. -/
def ofTree? (t : Json.Tree) : Option Script := Step.scriptOfTree? t

/-- The value that is written for a script. -/
def toJson (s : Script) : Json := .array (Step.scriptToJson s)

instance : Document Script := ⟨ofTree?, toJson⟩

end Script

end TextAdventure
