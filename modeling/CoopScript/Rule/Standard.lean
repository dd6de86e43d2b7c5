import CoopScript.Rule.Expression
import CoopScript.Rule.Statement

set_option autoImplicit false
namespace CoopScript

def RuleSet.standard : RuleSet :=
  ⟨LexRule.standard, StatementRule.standard, ExpressionRule.standard⟩

end CoopScript
