import ColouredPetri.Description.Decode
import ColouredPetri.Description.Encode
import ColouredPetri.Files.Path

namespace ColouredPetri

inductive Format where
  | json
  | ron
  deriving DecidableEq, Inhabited

namespace Format

def word : Format → String
  | json => "Json"
  | ron => "Ron"

def ofPath (path : String) : Format :=
  if Path.extension? path = some "ron" then ron else json

def ofWord? (s : String) : Option Format :=
  let lower := s.toList.map Char.toLower
  if lower = "json".toList then some json
  else if lower = "ron".toList then some ron
  else none

def write? (f : Format) (d : Doc) : Option String :=
  match f with
  | json => some d.json
  | ron => d.ron?

def read? (f : Format) (text : String) : Option NetDescription :=
  match f with
  | json => (Json.ofText? text).bind fun d => Decode.net? Json.nestedView ⟨d, Json.maxDepth⟩
  | ron =>
    (Ron.ofText? text).bind fun x =>
      Decode.net? (Ron.view x.1.explicitNames) ⟨x.2, Ron.maxLevels⟩

end Format

end ColouredPetri
