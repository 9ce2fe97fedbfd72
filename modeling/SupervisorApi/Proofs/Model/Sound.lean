import SupervisorApi.Model.Catalog
import SupervisorApi.Proofs.Model.Leaf

set_option autoImplicit false

namespace SupervisorApi

def Parts.names : Parts → List String
  | .nil => []
  | .record own parts rest => own.names ++ parts.names ++ rest.names
  | .selection rest => Selection.names ++ rest.names

def Shape.isSolid : Shape → Bool
  | .json | .nullable _ => false
  | _ => true

mutual

def Shape.isSound : Shape → Bool
  | .choice c | .lenient c => c.names.Nodup
  | .nullable s => s.isSolid && s.isSound
  | .list s | .dict s => s.isSound
  | .set k => k.isSound
  | .record own parts => own.isSound && parts.isSound && (own.names ++ parts.names).Nodup
  | .tagged tag alternatives => alternatives.isSound tag && alternatives.names.Nodup
  | .tree own children => own.isSound && (own.names ++ [children]).Nodup
  | _ => true

def Slots.isSound : Slots → Bool
  | .nil => true
  | .cons _ p s rest => (p = .required || s.isSolid) && s.isSound && rest.isSound

def Parts.isSound : Parts → Bool
  | .nil => true
  | .record own parts rest => own.isSound && parts.isSound && rest.isSound
  | .selection rest => rest.isSound

def Alternatives.isSound (tag : String) : Alternatives → Bool
  | .nil => true
  | .cons _ own parts rest =>
    own.isSound && parts.isSound && (tag :: (own.names ++ parts.names)).Nodup && rest.isSound tag

end

def Shape.isObject : Shape → Bool
  | .object | .dict _ | .record _ _ | .selection | .tagged _ _ | .tree _ _ => true
  | _ => false

namespace Catalog

theorem models_isSound : ∀ m ∈ models, m.2.isSound = true := by
  decide +kernel

theorem models_isObject : ∀ m ∈ models, m.2.isObject = true := by
  decide +kernel

end Catalog

end SupervisorApi
