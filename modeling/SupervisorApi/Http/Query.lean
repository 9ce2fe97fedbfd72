import SupervisorApi.Text.Percent

set_option autoImplicit false

namespace SupervisorApi

abbrev Query := List (String × String)

namespace Query

def encodePair (pair : String × String) : String :=
  Percent.encode pair.1 ++ "=" ++ Percent.encode pair.2

def encode (query : Query) : String :=
  "&".intercalate (query.map encodePair)

def all (key : String) (values : List String) : Query :=
  values.map fun v => (key, v)

inductive Addition where
  | one (key value : String)
  | all (key : String) (values : List String)

def Addition.pairs : Addition → Query
  | .one key value => [(key, value)]
  | .all key values => Query.all key values

def add (query : Query) (a : Addition) : Query :=
  query ++ a.pairs

end Query

end SupervisorApi
