import CoopScript.Grammar.Expression
import CoopScript.Grammar.Statement

set_option autoImplicit false
namespace CoopScript

def Grammar.standard : Grammar := ⟨StatementForm.standard, ExpressionForm.standard⟩

end CoopScript
