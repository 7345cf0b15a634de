/-! The phases of a build. -/
namespace PackageRecipes

inductive Phase where
  | environment | edit | configure | build | install
  deriving DecidableEq

namespace Phase

/-- In the order in which they run. -/
def inOrder : List Phase := [.environment, .edit, .configure, .build, .install]

def name : Phase → String
  | .environment => "environment"
  | .edit => "edit"
  | .configure => "configure"
  | .build => "build"
  | .install => "install"

end Phase

end PackageRecipes
