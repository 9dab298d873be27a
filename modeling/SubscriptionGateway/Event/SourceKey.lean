/-!
What a broker consumer listens to: a provider and a set of topics, kept as a strictly increasing
list so that equal sets are equal keys.
-/
namespace SubscriptionGateway

def insertTopic (t : String) : List String → List String
  | [] => [t]
  | u :: rest =>
      if t < u then t :: u :: rest else if t = u then u :: rest else u :: insertTopic t rest

structure SourceKey where
  provider : String
  topics : List String
  deriving DecidableEq, Repr

namespace SourceKey

def ofTopics (provider : String) (topics : List String) : SourceKey :=
  ⟨provider, topics.foldr insertTopic []⟩

def text (k : SourceKey) : String := k.provider ++ ":" ++ ",".intercalate k.topics

/-- Lists in order of their first difference, a list before its extensions. -/
def topicsLt : List String → List String → Bool
  | _, [] => false
  | [], _ :: _ => true
  | a :: as, b :: bs => decide (a < b) || (a == b && topicsLt as bs)

def lt (a b : SourceKey) : Bool :=
  decide (a.provider < b.provider) || (a.provider == b.provider && topicsLt a.topics b.topics)

def insertKey (k : SourceKey) : List SourceKey → List SourceKey
  | [] => [k]
  | l :: rest => if k.lt l then k :: l :: rest else l :: insertKey k rest

def sorted (ks : List SourceKey) : List SourceKey :=
  ks.foldl (fun acc k => insertKey k acc) []

end SourceKey

end SubscriptionGateway
