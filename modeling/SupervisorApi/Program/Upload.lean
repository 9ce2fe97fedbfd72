import SupervisorApi.Program.Basic

set_option autoImplicit false

namespace SupervisorApi

namespace UploadProgram

def source : String := "backup_upload"

def usage : String := "usage: backup-upload <file> [location...]"

def fileName (path : String) : Option String :=
  match (Files.steps path.toList).getLast? with
  | some name => if name = ['.', '.'] then none else some (String.ofList name)
  | none => none

def location (name : String) : Option String :=
  if name = localLocation then none else some name

def locations (names : List String) : SortedSet (Option String) :=
  SortedSet.ofList (names.map location)

def doneMessage (path slug : String) : String :=
  "backup uploaded path=" ++ path ++ " slug=" ++ slug

open Program

def send (environment : String → Option String) (boundary : Boundary) (path : String)
    (names : List String) (file : List Arrival) : Program :=
  withClient environment id fun c s =>
    need Endpoint.uploadBackup c s .blank
      (Upload.ofStream boundary file, some ⟨locations names, fileName path⟩)
      fun _ (slug : String) =>
        .report (.info source (doneMessage path slug)) (.ended none)

-- The file is opened before a client is made.
def main (environment : String → Option String) (boundary : Boundary) (arguments : List String) :
    Program :=
  match arguments with
  | [] => fail usage
  | path :: names =>
    .load path fun
      | .ok file => send environment boundary path names file
      | .error e => fail e.message

end UploadProgram

end SupervisorApi
