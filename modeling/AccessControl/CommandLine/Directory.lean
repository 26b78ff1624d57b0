import AccessControl.CommandLine

/-! A directory that is held in memory. It has files only, and a command that runs in it sees nothing
else. -/
namespace AccessControl.CommandLine

structure Directory where
  files : List (String × String)

namespace Directory

def pathNames (path : String) : List String :=
  (splitSlashes path.toList).map String.ofList
where
  splitSlashes : List Char → List (List Char)
    | [] => [[]]
    | c :: rest =>
      match splitSlashes rest with
      | [] => [[c]]
      | name :: names => if c = '/' then [] :: name :: names else (c :: name) :: names

def staysHere (name : String) : Bool := name = "" || name = "."

/-- What a path leads to. The directories above are there, and nothing is known below them. No names
stand behind that of a file, not even empty ones. -/
def content (d : Directory) (path : String) : Content :=
  let names := pathNames path
  let isAbsolute := path.toList.head? == some '/'
  if path = "" then .absent
  else if names.all fun name => staysHere name || name = ".." then .unreadable
  else match names.dropWhile staysHere with
    | [name] => if isAbsolute then .absent else (d.files.lookup name).elim .absent .text
    | _ => .absent

end Directory
end AccessControl.CommandLine
