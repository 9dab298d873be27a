/-!
The name of the stream behind a subject: letters in capitals, digits and hyphens kept, all else an
underscore, without underscores at either end.
-/
namespace SubscriptionGateway

def streamChar (c : Char) : Char :=
  if c.isAlphanum || c == '-' then c.toUpper else '_'

def streamName (subject : String) : String :=
  let name := (subject.toList.map streamChar).dropWhile (· == '_')
  let name := (name.reverse.dropWhile (· == '_')).reverse
  if name.isEmpty then "EVENTS" else String.ofList name

end SubscriptionGateway
