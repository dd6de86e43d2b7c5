import CoopScript.Extension.Expression
import CoopScript.Extension.Recognizer
import CoopScript.Extension.Statement
import CoopScript.Rule.Standard

set_option autoImplicit false
namespace CoopScript.RuleSet

def extend (rules : RuleSet) (name : String) : RuleSet :=
  match name with
  | "unless" => rules.registerStatement Extension.unlessRule
  | "while_once" => rules.registerStatement Extension.whileOnceRule
  | "concat" => (rules.registerLexRule Extension.dotsRule).registerExpression Extension.concatRule
  | "pair" => rules.registerExpression Extension.pairRule
  | "do" => rules.registerExpression Extension.doRule
  | "ghost" => rules.registerExpression Extension.ghostRule
  | "void" => rules.registerExpression Extension.voidRule
  | "minus" => rules.registerExpression Extension.minusRule
  | _ => rules

def customised (extensions : List String) (lexRules : List LexRule) : RuleSet :=
  lexRules.foldl registerLexRule (extensions.foldl extend standard)

end CoopScript.RuleSet
